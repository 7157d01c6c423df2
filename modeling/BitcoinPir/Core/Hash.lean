import BitcoinPir.Foundations.Bytes

/-!
# Placement hashes

The keyed mixers that assign items to PBC groups, to cuckoo bins and to fingerprint tags. Items
are script hashes (INDEX tables) or 32-bit ids (CHUNK tables). A group assignment is found by
trying nonces until enough distinct groups have come up (`collectGroups`); it fails only if the
64-bit nonce runs out, which no script hash does (`exists_deriveGroups3`).
-/

namespace BitcoinPir

open Foundations Function

/-- The 20-byte hash of a script. -/
abbrev ScriptHash := Digest 20

/-! ## Mixers -/

def splitmix64 (x : UInt64) : UInt64 :=
  let x := x ^^^ (x >>> 30)
  let x := x * 0xbf58476d1ce4e5b9
  let x := x ^^^ (x >>> 27)
  let x := x * 0x94d049bb133111eb
  x ^^^ (x >>> 31)

def goldenRatio : UInt64 := 0x9e3779b97f4a7c15

def cuckooKeyMix : UInt64 := 0x517cc1b727220a95

/-- Bytes 0 to 7 of a script hash. -/
def shA (scriptHash : ScriptHash) : UInt64 := UInt64.ofNat (leNat (scriptHash.val.take 8))

/-- Bytes 8 to 15 of a script hash. -/
def shB (scriptHash : ScriptHash) : UInt64 :=
  UInt64.ofNat (leNat ((scriptHash.val.drop 8).take 8))

/-- Bytes 16 to 19 of a script hash. -/
def shC (scriptHash : ScriptHash) : UInt64 :=
  UInt64.ofNat (leNat ((scriptHash.val.drop 16).take 4))

/-! ## Groups -/

def hashForGroup (scriptHash : ScriptHash) (nonce : UInt64) : UInt64 :=
  let h := shA scriptHash + nonce * goldenRatio
  let h := h ^^^ shB scriptHash
  splitmix64 (h ^^^ shC scriptHash)

def hashIntForGroup (id : UInt32) (nonce : UInt64) : UInt64 :=
  splitmix64 (id.toUInt64 + nonce * goldenRatio)

/-- Try nonces in turn and keep the new groups, until there are `numHashes`. The fuel counts the
nonces left. -/
def collectGroups (hashAt : UInt64 → UInt64) (k numHashes : ℕ) :
    ℕ → UInt64 → List ℕ → Option (List ℕ)
  | fuel, nonce, groups =>
    if groups.length = numHashes then some groups
    else
      match fuel with
      | 0 => none
      | fuel + 1 =>
        let group := (hashAt nonce).toNat % k
        collectGroups hashAt k numHashes fuel (nonce + 1)
          (if group ∈ groups then groups else groups ++ [group])

def nonceCount : ℕ := 2 ^ 64

def deriveGroups (scriptHash : ScriptHash) (k numHashes : ℕ) : Option (List ℕ) :=
  collectGroups (hashForGroup scriptHash) k numHashes nonceCount 0 []

/-- The same search into an array of three groups, of which the first `count` are chosen. -/
def fillGroups3 (hashAt : UInt64 → UInt64) (k : ℕ) : ℕ → UInt64 → List ℕ → ℕ → Option (List ℕ)
  | fuel, nonce, groups, count =>
    if count < 3 then
      match fuel with
      | 0 => none
      | fuel + 1 =>
        let group := (hashAt nonce).toNat % k
        if group ∈ groups.take count then fillGroups3 hashAt k fuel (nonce + 1) groups count
        else fillGroups3 hashAt k fuel (nonce + 1) (groups.set count group) (count + 1)
    else some groups

def deriveGroups3 (scriptHash : ScriptHash) (k : ℕ) : Option (List ℕ) :=
  fillGroups3 (hashForGroup scriptHash) k nonceCount 0 [0, 0, 0] 0

def deriveIntGroups3 (id : UInt32) (k : ℕ) : Option (List ℕ) :=
  fillGroups3 (hashIntForGroup id) k nonceCount 0 [0, 0, 0] 0

/-- As many distinct groups below `k` as asked for. -/
def DistinctBelow (k numHashes : ℕ) (groups : List ℕ) : Prop :=
  groups.Nodup ∧ (∀ g ∈ groups, g < k) ∧ groups.length = numHashes

section Search

variable {hashAt : UInt64 → UInt64} {k numHashes fuel : ℕ} {nonce : UInt64}
  {groups result : List ℕ}

/-- The array holds what the list would. -/
theorem fillGroups3_eq (hashAt : UInt64 → UInt64) (k fuel : ℕ) (nonce : UInt64) {count : ℕ}
    (hlen : groups.length = 3) (hcount : count ≤ 3) :
    fillGroups3 hashAt k fuel nonce groups count =
      collectGroups hashAt k 3 fuel nonce (groups.take count) := by
  induction fuel generalizing nonce groups count with
  | zero =>
    rw [fillGroups3, collectGroups, List.length_take_of_le (by omega)]
    split_ifs with hlt heq
    · omega
    · rfl
    · rw [List.take_of_length_le (by omega)]
    · omega
  | succ fuel ih =>
    rw [fillGroups3, collectGroups, List.length_take_of_le (by omega)]
    by_cases hlt : count < 3
    · rw [if_pos hlt, if_neg hlt.ne]
      dsimp only
      split_ifs
      · exact ih _ hlen hcount
      · rw [ih _ (by simpa using hlen) hlt, List.take_add_one, List.take_set_of_le (by omega)]
        simp [hlen, hlt]
    · rw [if_neg hlt, if_pos (by omega), List.take_of_length_le (by omega)]

/-- The groups collected are distinct and in range, and there are `numHashes` of them. -/
theorem collectGroups_spec (hk : 0 < k) (hnodup : groups.Nodup) (hlt : ∀ g ∈ groups, g < k)
    (h : collectGroups hashAt k numHashes fuel nonce groups = some result) :
    DistinctBelow k numHashes result := by
  induction fuel generalizing nonce groups with
  | zero =>
    rw [collectGroups] at h
    split_ifs at h with hlen
    · cases h
      exact ⟨hnodup, hlt, hlen⟩
  | succ fuel ih =>
    rw [collectGroups] at h
    split_ifs at h with hlen
    · cases h
      exact ⟨hnodup, hlt, hlen⟩
    · refine ih ?_ ?_ h
      · split_ifs with hmem
        · exact hnodup
        · rw [← List.concat_eq_append]
          exact hnodup.concat hmem
      · intro g hg
        split_ifs at hg with hmem
        · exact hlt g hg
        · rcases List.mem_append.1 hg with hg | hg
          · exact hlt g hg
          · rw [List.mem_singleton.1 hg]
            exact Nat.mod_lt _ hk

theorem fillGroups3_spec (hk : 0 < k)
    (h : fillGroups3 hashAt k fuel nonce [0, 0, 0] 0 = some groups) :
    DistinctBelow k 3 groups := by
  rw [fillGroups3_eq hashAt k fuel nonce rfl (Nat.zero_le 3)] at h
  exact collectGroups_spec hk List.nodup_nil (by simp) h

theorem deriveGroups3_spec {scriptHash : ScriptHash} (hk : 0 < k)
    (h : deriveGroups3 scriptHash k = some groups) : DistinctBelow k 3 groups :=
  fillGroups3_spec hk h

theorem deriveIntGroups3_spec {id : UInt32} (hk : 0 < k)
    (h : deriveIntGroups3 id k = some groups) : DistinctBelow k 3 groups :=
  fillGroups3_spec hk h

/-! ## The search for groups ends

The mixer is a bijection, so that the nonces of a script hash reach every 64-bit value and with
them every group. -/

/-- An xor with its own shift can be undone. -/
theorem xor_shiftRight_injective {s : UInt64} (hs : 0 < s.toNat % 64) :
    Injective fun x : UInt64 => x ^^^ (x >>> s) := by
  intro x y h
  have hz : (x ^^^ y) = (x ^^^ y) >>> s := by
    have h' : x ^^^ (x >>> s) = y ^^^ (y >>> s) := h
    have hshift : (x ^^^ y) >>> s = (x >>> s) ^^^ (y >>> s) := UInt64.shiftRight_xor
    rw [hshift]
    calc x ^^^ y = (x ^^^ (x >>> s)) ^^^ ((x >>> s) ^^^ y) := by
          rw [UInt64.xor_assoc, ← UInt64.xor_assoc (x >>> s), UInt64.xor_self, UInt64.zero_xor]
      _ = (x >>> s) ^^^ (y >>> s) := by
          rw [h', UInt64.xor_comm (x >>> s) y, ← UInt64.xor_assoc, UInt64.xor_comm y (y >>> s),
            UInt64.xor_assoc (y >>> s), UInt64.xor_self, UInt64.xor_zero, UInt64.xor_comm]
  have hnat := congrArg UInt64.toNat hz
  rw [UInt64.toNat_shiftRight, Nat.shiftRight_eq_div_pow] at hnat
  have hpow : 1 < 2 ^ (s.toNat % 64) := Nat.one_lt_two_pow hs.ne'
  have hzero : (x ^^^ y).toNat = 0 := by
    by_contra hne
    exact absurd hnat.symm (Nat.div_lt_self (Nat.pos_of_ne_zero hne) hpow).ne
  exact UInt64.xor_eq_zero_iff.1 (UInt64.toNat_inj.1 hzero)

theorem mul_right_injective_of_inverse {c d : UInt64} (h : c * d = 1) :
    Injective fun x : UInt64 => x * c := by
  intro x y hxy
  have hmul : x * c * d = y * c * d := congrArg (· * d) hxy
  rwa [UInt64.mul_assoc, UInt64.mul_assoc, h, UInt64.mul_one, UInt64.mul_one] at hmul

theorem splitmix64_injective : Injective splitmix64 := by
  intro x y h
  have h31 := xor_shiftRight_injective (s := 31) (by decide) h
  have hmul := mul_right_injective_of_inverse (c := 0x94d049bb133111eb)
    (d := 0x319642b2d24d8ec3) (by decide) h31
  have h27 := xor_shiftRight_injective (s := 27) (by decide) hmul
  have hmul' := mul_right_injective_of_inverse (c := 0xbf58476d1ce4e5b9)
    (d := 0x96de1b173f119089) (by decide) h27
  exact xor_shiftRight_injective (s := 30) (by decide) hmul'

theorem hashForGroup_injective (scriptHash : ScriptHash) :
    Injective (hashForGroup scriptHash) := by
  intro x y h
  have hxor := splitmix64_injective h
  have hadd := (UInt64.xor_left_inj _).1 ((UInt64.xor_left_inj _).1 hxor)
  exact mul_right_injective_of_inverse (c := goldenRatio) (d := 0xf1de83e19937733d) (by decide)
    ((UInt64.add_right_inj _).1 hadd)

theorem hashIntForGroup_injective (id : UInt32) : Injective (hashIntForGroup id) := by
  intro x y h
  exact mul_right_injective_of_inverse (c := goldenRatio) (d := 0xf1de83e19937733d) (by decide)
    ((UInt64.add_right_inj _).1 (splitmix64_injective h))

/-- The nonces reach every hash. -/
theorem surjective_of_nonces {hashAt : UInt64 → UInt64} (h : Injective hashAt) :
    Surjective hashAt :=
  Finite.surjective_of_injective h

theorem hashForGroup_surjective (scriptHash : ScriptHash) :
    Surjective (hashForGroup scriptHash) :=
  surjective_of_nonces (hashForGroup_injective scriptHash)

theorem hashIntForGroup_surjective (id : UInt32) : Surjective (hashIntForGroup id) :=
  surjective_of_nonces (hashIntForGroup_injective id)

/-- A search that runs out of nonces has too few groups, with the group of every nonce tried. -/
theorem collectGroups_eq_none (hlen : groups.length ≤ numHashes)
    (h : collectGroups hashAt k numHashes fuel nonce groups = none) :
    ∃ tried, groups ⊆ tried ∧ tried.length < numHashes ∧
      ∀ i < fuel, (hashAt (nonce + UInt64.ofNat i)).toNat % k ∈ tried := by
  induction fuel generalizing nonce groups with
  | zero =>
    rw [collectGroups] at h
    split_ifs at h with hfull
    exact ⟨groups, List.Subset.refl _, lt_of_le_of_ne hlen hfull, by simp⟩
  | succ fuel ih =>
    rw [collectGroups] at h
    split_ifs at h with hfull
    set group := (hashAt nonce).toNat % k
    have hlen' : (if group ∈ groups then groups else groups ++ [group]).length ≤ numHashes := by
      split_ifs
      · exact hlen
      · rw [List.length_append, List.length_singleton]
        omega
    have hsub : group :: groups ⊆ if group ∈ groups then groups else groups ++ [group] := by
      split_ifs with hmem
      · exact List.cons_subset.2 ⟨hmem, List.Subset.refl _⟩
      · exact (List.perm_append_singleton group groups).symm.subset
    obtain ⟨tried, hgroups, hlt, htried⟩ := ih hlen' h
    have hall := List.cons_subset.1 (List.Subset.trans hsub hgroups)
    refine ⟨tried, hall.2, hlt, fun i hi => ?_⟩
    cases i with
    | zero => simpa using hall.1
    | succ i =>
      have hnonce : nonce + UInt64.ofNat (i + 1) = nonce + 1 + UInt64.ofNat i := by
        rw [UInt64.ofNat_add, UInt64.add_assoc, UInt64.add_comm (UInt64.ofNat i)]
        rfl
      rw [hnonce]
      exact htried i (Nat.lt_of_succ_lt_succ hi)

/-- A search that reaches as many groups as it needs finds them. -/
theorem exists_collectGroups (hreach : ∀ r < numHashes, ∃ nonce : UInt64,
      nonce.toNat < fuel ∧ (hashAt nonce).toNat % k = r) :
    ∃ groups, collectGroups hashAt k numHashes fuel 0 [] = some groups := by
  cases h : collectGroups hashAt k numHashes fuel 0 [] with
  | some groups => exact ⟨groups, rfl⟩
  | none =>
    obtain ⟨tried, -, hlt, htried⟩ := collectGroups_eq_none (Nat.zero_le _) h
    have hall : List.range numHashes ⊆ tried := by
      intro r hr
      obtain ⟨nonce, hnonce, hgroup⟩ := hreach r (List.mem_range.1 hr)
      have hmem := htried nonce.toNat hnonce
      rwa [UInt64.ofNat_toNat, UInt64.zero_add, hgroup] at hmem
    have hle := (List.nodup_range.subperm hall).length_le
    rw [List.length_range] at hle
    omega

/-- Some nonce has a small number as its hash. -/
theorem exists_nonce (hsurj : Surjective hashAt) {r : ℕ} (hr : r < 2 ^ 64) :
    ∃ nonce, (hashAt nonce).toNat = r := by
  obtain ⟨nonce, hnonce⟩ := hsurj (UInt64.ofNat r)
  exact ⟨nonce, by rw [hnonce, UInt64.toNat_ofNat_of_lt' hr]⟩

/-- Each group is the group of two hashes, so that one of them comes before the last nonce. -/
theorem exists_nonce_lt (hsurj : Surjective hashAt) (hk : k ≤ 2 ^ 32) {r : ℕ} (hr : r < k) :
    ∃ nonce : UInt64, nonce.toNat < nonceCount - 1 ∧ (hashAt nonce).toNat % k = r := by
  obtain ⟨a, ha⟩ := exists_nonce hsurj (r := r) (by omega)
  obtain ⟨b, hb⟩ := exists_nonce hsurj (r := r + k) (by omega)
  have hne : a.toNat ≠ b.toNat := by
    intro h
    rw [UInt64.toNat_inj.1 h, hb] at ha
    omega
  have hlt : a.toNat < nonceCount ∧ b.toNat < nonceCount := ⟨a.toNat_lt, b.toNat_lt⟩
  by_cases hlast : a.toNat < nonceCount - 1
  · exact ⟨a, hlast, by rw [ha, Nat.mod_eq_of_lt hr]⟩
  · exact ⟨b, by omega, by rw [hb, Nat.add_mod_right, Nat.mod_eq_of_lt hr]⟩

theorem exists_fillGroups3 (hsurj : Surjective hashAt) (hk : 3 ≤ k) :
    ∃ groups, fillGroups3 hashAt k nonceCount 0 [0, 0, 0] 0 = some groups := by
  rw [fillGroups3_eq hashAt k _ _ rfl (Nat.zero_le 3)]
  refine exists_collectGroups fun r hr => ?_
  obtain ⟨nonce, hnonce⟩ := exists_nonce hsurj (r := r) (by omega)
  exact ⟨nonce, nonce.toNat_lt, by rw [hnonce, Nat.mod_eq_of_lt (by omega)]⟩

/-- The candidate groups of a script hash are always found. -/
theorem exists_deriveGroups3 (scriptHash : ScriptHash) (hk : 3 ≤ k) :
    ∃ groups, deriveGroups3 scriptHash k = some groups :=
  exists_fillGroups3 (hashForGroup_surjective scriptHash) hk

/-- A search that has ended is not changed by further nonces. -/
theorem collectGroups_more (h : collectGroups hashAt k numHashes fuel nonce groups = some result)
    (more : ℕ) : collectGroups hashAt k numHashes (fuel + more) nonce groups = some result := by
  induction fuel generalizing nonce groups with
  | zero =>
    rw [collectGroups] at h
    split_ifs at h with hfull
    simp [collectGroups.eq_def, hfull, h]
  | succ fuel ih =>
    rw [Nat.add_right_comm]
    rw [collectGroups] at h ⊢
    split_ifs at h ⊢
    · exact h
    · exact ih h

/-- A search for groups below `k` ends before the counter of the nonces overflows. -/
theorem collectGroups_finishes (hsurj : Surjective hashAt) (hk : k ≤ 2 ^ 32)
    (hn : numHashes ≤ k) : ∃ groups, DistinctBelow k numHashes groups ∧
      collectGroups hashAt k numHashes (nonceCount - 1) 0 [] = some groups ∧
      collectGroups hashAt k numHashes nonceCount 0 [] = some groups := by
  obtain ⟨groups, hgroups⟩ : ∃ groups,
      collectGroups hashAt k numHashes (nonceCount - 1) 0 [] = some groups :=
    exists_collectGroups fun r hr => exists_nonce_lt hsurj hk (lt_of_lt_of_le hr hn)
  have hall := collectGroups_more hgroups 1
  obtain rfl | hpos := Nat.eq_zero_or_pos numHashes
  · cases (show some [] = some groups from hgroups)
    exact ⟨[], ⟨List.nodup_nil, by simp, rfl⟩, hgroups, hall⟩
  · exact ⟨groups, collectGroups_spec (by omega) List.nodup_nil (by simp) hgroups, hgroups, hall⟩

end Search

/-- **Group derivation always finishes.** For at most `2 ^ 32` groups, and no more hashes than
groups, the searches end with all but the last nonce, so that the counter does not overflow, and
return distinct groups in range; the fixed-size search is the general one for three. -/
theorem deriveGroups_finish {k : ℕ} (hk : k ≤ 2 ^ 32) (scriptHash : ScriptHash) (id : UInt32) :
    (∀ numHashes ≤ k, ∃ groups, DistinctBelow k numHashes groups ∧
      collectGroups (hashForGroup scriptHash) k numHashes (nonceCount - 1) 0 [] = some groups ∧
      deriveGroups scriptHash k numHashes = some groups) ∧
    (3 ≤ k → ∃ groups, DistinctBelow k 3 groups ∧
      fillGroups3 (hashForGroup scriptHash) k (nonceCount - 1) 0 [0, 0, 0] 0 = some groups ∧
      deriveGroups3 scriptHash k = some groups) ∧
    (3 ≤ k → ∃ groups, DistinctBelow k 3 groups ∧
      fillGroups3 (hashIntForGroup id) k (nonceCount - 1) 0 [0, 0, 0] 0 = some groups ∧
      deriveIntGroups3 id k = some groups) ∧
    deriveGroups3 scriptHash k = deriveGroups scriptHash k 3 := by
  have hfill : ∀ (hashAt : UInt64 → UInt64) fuel, fillGroups3 hashAt k fuel 0 [0, 0, 0] 0 =
      collectGroups hashAt k 3 fuel 0 [] :=
    fun hashAt fuel => fillGroups3_eq hashAt k fuel 0 rfl (Nat.zero_le 3)
  refine ⟨fun numHashes hn => ?_, fun h3 => ?_, fun h3 => ?_, hfill _ _⟩
  · exact collectGroups_finishes (hashForGroup_surjective scriptHash) hk hn
  · rw [deriveGroups3, hfill, hfill]
    exact collectGroups_finishes (hashForGroup_surjective scriptHash) hk h3
  · rw [deriveIntGroups3, hfill, hfill]
    exact collectGroups_finishes (hashIntForGroup_surjective id) hk h3

/-- At the width of the INDEX tables: four distinct groups, and three by either search. -/
theorem deriveGroups_finish_index :
    (∃ groups, DistinctBelow 75 4 groups ∧ deriveGroups (Digest.zero 20) 75 4 = some groups) ∧
    (∃ groups, DistinctBelow 75 3 groups ∧ deriveGroups3 (Digest.zero 20) 75 = some groups ∧
      deriveGroups (Digest.zero 20) 75 3 = some groups) ∧
    ∃ groups, DistinctBelow 75 3 groups ∧ deriveIntGroups3 7 75 = some groups := by
  obtain ⟨hany, hthree, hint, heq⟩ := deriveGroups_finish (k := 75) (by decide) (Digest.zero 20) 7
  obtain ⟨four, hfour, -, h4⟩ := hany 4 (by decide)
  obtain ⟨three, h3, -, hderive⟩ := hthree (by decide)
  obtain ⟨ints, hints, -, hi⟩ := hint (by decide)
  exact ⟨⟨four, hfour, h4⟩, ⟨three, h3, hderive, heq ▸ hderive⟩, ints, hints, hi⟩

/-! ## Cuckoo bins and tags -/

def deriveCuckooKey (masterSeed : UInt64) (groupId hashFn : ℕ) : UInt64 :=
  splitmix64 (masterSeed + UInt64.ofNat groupId * goldenRatio +
    UInt64.ofNat hashFn * cuckooKeyMix)

def cuckooHash (scriptHash : ScriptHash) (key : UInt64) (numBins : ℕ) : ℕ :=
  let h := shA scriptHash ^^^ key
  let h := h ^^^ shB scriptHash
  (splitmix64 (h ^^^ shC scriptHash)).toNat % numBins

def cuckooHashInt (id : UInt32) (key : UInt64) (numBins : ℕ) : ℕ :=
  (splitmix64 (id.toUInt64 ^^^ key)).toNat % numBins

theorem cuckooHash_lt (scriptHash : ScriptHash) (key : UInt64) {numBins : ℕ} (h : 0 < numBins) :
    cuckooHash scriptHash key numBins < numBins :=
  Nat.mod_lt _ h

theorem cuckooHashInt_lt (id : UInt32) (key : UInt64) {numBins : ℕ} (h : 0 < numBins) :
    cuckooHashInt id key numBins < numBins :=
  Nat.mod_lt _ h

/-- The fingerprint of a script hash. -/
def computeTag (tagSeed : UInt64) (scriptHash : ScriptHash) : UInt64 :=
  let h := shA scriptHash ^^^ tagSeed
  let h := h ^^^ shB scriptHash
  splitmix64 (h ^^^ shC scriptHash)

end BitcoinPir
