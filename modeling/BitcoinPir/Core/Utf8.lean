import BitcoinPir.Core.Protocol

/-!
# Lossy decoding of text

Names travel as UTF-8 and are read with replacement characters for what is malformed. On text that
was encoded as UTF-8 this is the inverse of the encoding (`fromUtf8Lossy_toUtf8`).
-/

namespace BitcoinPir

open Foundations

def IsContinuation (b : UInt8) : Prop := 0x80 ≤ b ∧ b ≤ 0xbf

theorem isContinuation_ofNat (n : ℕ) : IsContinuation (UInt8.ofNat (n % 64 + 128)) := by
  simp only [IsContinuation, UInt8.le_iff_toNat_le, UInt8.toNat_ofNat', UInt8.reduceToNat]
  omega

theorem toNat_continuation (n : ℕ) : (UInt8.ofNat (n % 64 + 128)).toNat % 64 = n % 64 := by
  rw [UInt8.toNat_ofNat']
  omega

theorem utf8Tail_append {tail : Bytes} (h : ∀ b ∈ tail, IsContinuation b) (rest : Bytes) :
    utf8Tail tail.length (tail ++ rest) = tail.length := by
  induction tail with
  | nil => cases rest <;> rfl
  | cons b tail ih =>
    have hb : 0x80 ≤ b ∧ b ≤ 0xbf := h b List.mem_cons_self
    rw [List.length_cons, List.cons_append, utf8Tail, if_pos hb,
      ih fun b hb => h b (List.mem_cons_of_mem _ hb), Nat.add_comm]

/-- A lead byte with the continuation it asks for is one character. -/
theorem utf8Char_follow {lead b lo hi : UInt8} {tail : Bytes}
    (htail : ∀ b ∈ tail, IsContinuation b) (hlead : 128 ≤ lead.toNat)
    (hfollow : utf8Follow lead = some (lo, hi, tail.length)) (hlo : lo ≤ b) (hhi : b ≤ hi)
    (rest : Bytes) :
    utf8Char lead (b :: tail ++ rest) =
      (Char.ofNat (lead.toNat % 2 ^ (5 - tail.length) * 64 ^ (tail.length + 1) +
        (b :: tail).foldl (fun acc c => acc * 64 + c.toNat % 64) 0), (b :: tail).length) := by
  have hnot : ¬lead < 0x80 := UInt8.not_lt.2 (UInt8.le_iff_toNat_le.2 hlead)
  unfold utf8Char
  rw [if_neg hnot, hfollow, List.cons_append]
  dsimp only
  rw [if_pos ⟨hlo, hhi⟩, utf8Tail_append htail, if_pos rfl, List.take_left' rfl, List.length_cons]

theorem toNat_val_lt (c : Char) :
    c.val.toNat < 0xd800 ∨ 0xdfff < c.val.toNat ∧ c.val.toNat < 0x110000 :=
  c.valid

/-- The second byte of a character of three bytes; surrogates are excluded. -/
theorem follow_three {lead b : UInt8} {v : ℕ} (hlead : lead.toNat = v / 4096 + 224)
    (hb : b.toNat = v / 64 % 64 + 128) (hlow : 2048 ≤ v ∧ v ≤ 65535)
    (hvalid : v < 0xd800 ∨ 0xdfff < v) :
    ∃ lo hi, utf8Follow lead = some (lo, hi, 1) ∧ lo ≤ b ∧ b ≤ hi := by
  simp only [utf8Follow, UInt8.le_iff_toNat_le, ← UInt8.toNat_inj, hlead, UInt8.reduceToNat]
  rw [if_neg (by omega)]
  by_cases h0 : v / 4096 + 224 = 224
  · refine ⟨0xa0, 0xbf, if_pos h0, ?_⟩
    simp only [hb, UInt8.reduceToNat]
    omega
  by_cases hd : v / 4096 + 224 = 237
  · refine ⟨0x80, 0x9f, ?_, ?_⟩
    · rw [if_neg h0, if_pos hd]
    · simp only [hb, UInt8.reduceToNat]
      omega
  · refine ⟨0x80, 0xbf, ?_, ?_⟩
    · rw [if_neg h0, if_neg hd, if_pos (by omega)]
    · simp only [hb, UInt8.reduceToNat]
      omega

/-- The second byte of a character of four bytes. -/
theorem follow_four {lead b : UInt8} {v : ℕ} (hlead : lead.toNat = v / 262144 + 240)
    (hb : b.toNat = v / 4096 % 64 + 128) (hlow : 65536 ≤ v) (hvalid : v < 0x110000) :
    ∃ lo hi, utf8Follow lead = some (lo, hi, 2) ∧ lo ≤ b ∧ b ≤ hi := by
  simp only [utf8Follow, UInt8.le_iff_toNat_le, ← UInt8.toNat_inj, hlead, UInt8.reduceToNat]
  rw [if_neg (by omega), if_neg (by omega), if_neg (by omega), if_neg (by omega)]
  by_cases h0 : v / 262144 + 240 = 240
  · refine ⟨0x90, 0xbf, if_pos h0, ?_⟩
    simp only [hb, UInt8.reduceToNat]
    omega
  by_cases h4 : v / 262144 + 240 = 244
  · refine ⟨0x80, 0x8f, ?_, ?_⟩
    · rw [if_neg h0, if_neg (by omega), if_pos h4]
    · simp only [hb, UInt8.reduceToNat]
      omega
  · refine ⟨0x80, 0xbf, ?_, ?_⟩
    · rw [if_neg h0, if_pos (by omega)]
    · simp only [hb, UInt8.reduceToNat]
      omega

/-- The lossy decoder reads an encoded character back. -/
theorem utf8Char_utf8EncodeChar (c : Char) (rest : Bytes) :
    ∃ lead tail, String.utf8EncodeChar c = lead :: tail ∧
      utf8Char lead (tail ++ rest) = (c, tail.length) := by
  have hvalid := toNat_val_lt c
  have hchar : Char.ofNat c.val.toNat = c := Char.ofNat_toNat c
  generalize hv : c.val.toNat = v at hvalid hchar
  unfold String.utf8EncodeChar
  rw [hv]
  dsimp only
  split_ifs with h1 h2 h3
  · refine ⟨_, _, rfl, ?_⟩
    have hlead : (UInt8.ofNat v).toNat = v := by
      rw [UInt8.toNat_ofNat']
      omega
    have hlt : UInt8.ofNat v < 0x80 := by
      rw [UInt8.lt_iff_toNat_lt, hlead]
      exact Nat.lt_succ_of_le h1
    unfold utf8Char
    rw [if_pos hlt, hlead, hchar]
    rfl
  · refine ⟨_, _, rfl, ?_⟩
    have hlead : (UInt8.ofNat (v / 64 % 32 + 192)).toNat = v / 64 + 192 := by
      rw [UInt8.toNat_ofNat']
      omega
    have hfollow : utf8Follow (UInt8.ofNat (v / 64 % 32 + 192)) = some (0x80, 0xbf, 0) := by
      rw [utf8Follow, if_pos]
      simp only [UInt8.le_iff_toNat_le, hlead, UInt8.reduceToNat]
      omega
    have hsecond := isContinuation_ofNat v
    have htail : ∀ b ∈ ([] : Bytes), IsContinuation b := by simp
    rw [utf8Char_follow htail (by rw [hlead]; omega) hfollow hsecond.1 hsecond.2, hlead]
    simp only [List.foldl_cons, List.foldl_nil, toNat_continuation, List.length_nil]
    rw [← hchar]
    congr 2
    omega
  · refine ⟨_, _, rfl, ?_⟩
    have hlead : (UInt8.ofNat (v / 4096 % 16 + 224)).toNat = v / 4096 + 224 := by
      rw [UInt8.toNat_ofNat']
      omega
    have hsecond : (UInt8.ofNat (v / 64 % 64 + 128)).toNat = v / 64 % 64 + 128 := by
      rw [UInt8.toNat_ofNat']
      omega
    obtain ⟨lo, hi, hfollow, hlo, hhi⟩ := follow_three hlead hsecond (by omega) (by omega)
    have htail : ∀ b ∈ [UInt8.ofNat (v % 64 + 128)], IsContinuation b := by
      intro b hb
      rw [List.mem_singleton.1 hb]
      exact isContinuation_ofNat v
    rw [utf8Char_follow htail (by rw [hlead]; omega) hfollow hlo hhi, hlead]
    simp only [List.foldl_cons, List.foldl_nil, toNat_continuation, List.length_cons,
      List.length_nil]
    rw [← hchar]
    congr 2
    omega
  · refine ⟨_, _, rfl, ?_⟩
    have hlead : (UInt8.ofNat (v / 262144 % 8 + 240)).toNat = v / 262144 + 240 := by
      rw [UInt8.toNat_ofNat']
      omega
    have hsecond : (UInt8.ofNat (v / 4096 % 64 + 128)).toNat = v / 4096 % 64 + 128 := by
      rw [UInt8.toNat_ofNat']
      omega
    obtain ⟨lo, hi, hfollow, hlo, hhi⟩ := follow_four hlead hsecond (by omega) (by omega)
    have htail : ∀ b ∈ [UInt8.ofNat (v / 64 % 64 + 128), UInt8.ofNat (v % 64 + 128)],
        IsContinuation b := by
      intro b hb
      rcases List.mem_pair.1 hb with rfl | rfl
      · exact isContinuation_ofNat (v / 64)
      · exact isContinuation_ofNat v
    rw [utf8Char_follow htail (by rw [hlead]; omega) hfollow hlo hhi, hlead]
    simp only [List.foldl_cons, List.foldl_nil, toNat_continuation, List.length_cons,
      List.length_nil]
    rw [← hchar]
    congr 2
    omega

theorem utf8LossyChars_encode (chars : List Char) {fuel : ℕ} (hfuel : chars.length ≤ fuel) :
    utf8LossyChars fuel (chars.flatMap String.utf8EncodeChar) = chars := by
  induction chars generalizing fuel with
  | nil => cases fuel <;> rfl
  | cons c chars ih =>
    obtain ⟨fuel, rfl⟩ : ∃ n, fuel = n + 1 := ⟨fuel - 1, by simp at hfuel; omega⟩
    obtain ⟨lead, tail, hencode, hread⟩ :=
      utf8Char_utf8EncodeChar c (chars.flatMap String.utf8EncodeChar)
    rw [List.flatMap_cons, hencode, List.cons_append, utf8LossyChars, hread]
    dsimp only
    rw [List.drop_left' rfl, ih (by simpa using hfuel)]

theorem toUtf8_eq (s : String) : toUtf8 s = s.toList.flatMap String.utf8EncodeChar := by
  rw [toUtf8, String.toUTF8, ← String.utf8Encode_toList, List.utf8Encode]
  simp

theorem length_le_length_flatMap_utf8EncodeChar (chars : List Char) :
    chars.length ≤ (chars.flatMap String.utf8EncodeChar).length := by
  induction chars with
  | nil => simp
  | cons c chars ih =>
    obtain ⟨lead, tail, hencode, -⟩ := utf8Char_utf8EncodeChar c []
    rw [List.flatMap_cons, hencode, List.length_append, List.length_cons, List.length_cons]
    omega

@[simp]
theorem fromUtf8Lossy_toUtf8 (s : String) : fromUtf8Lossy (toUtf8 s) = s := by
  rw [fromUtf8Lossy, toUtf8_eq,
    utf8LossyChars_encode _ (length_le_length_flatMap_utf8EncodeChar s.toList), String.ofList_toList]

end BitcoinPir
