import BitcoinPir.Harmony.HintState

/-!
# Which hint states are used twice

A request advances the relocation log of its group, so in memory no state is used twice
(`Advances`). What brings a used state back is loading: new groups under a key that was used before,
and a cache file written before the last request. `Allowed` says that neither happens, in terms of
the key, the file and the requests so far; `Fresh` is what it keeps: every group in memory is ahead
of all requests made with its key, id and table size.

* `run_requests_nodup`: in every run that loads only unspent hints no hint state is used twice;
* `requests_repeat_after_refetch`: going to another database and back is enough for a repetition.
-/

namespace BitcoinPir.HarmonyClient

open Foundations

/-! ### Group ids -/

def Slot.InLayout (l : Layout) : Slot → Prop
  | .index g => g < l.kIndex
  | .chunk g => g < l.kChunk
  | .indexSib level g => level < l.indexSibLevels ∧ g < l.kIndex
  | .chunkSib _ g => g < l.kChunk

theorem mul_add_inj {k a b g g' : ℕ} (hg : g < k) (hg' : g' < k) (h : a * k + g = b * k + g') :
    a = b ∧ g = g' := by
  have hk : 0 < k := by omega
  have ha : (a * k + g) / k = a := by
    rw [add_comm, Nat.add_mul_div_right _ _ hk, Nat.div_eq_of_lt hg, zero_add]
  have hb : (b * k + g') / k = b := by
    rw [add_comm, Nat.add_mul_div_right _ _ hk, Nat.div_eq_of_lt hg', zero_add]
  have hab : a = b := by rw [← ha, h, hb]
  subst hab
  exact ⟨rfl, by omega⟩

theorem mul_add_lt_mul {k a b g : ℕ} (ha : a < b) (hg : g < k) : a * k + g < b * k := by
  have := Nat.mul_le_mul_right k (Nat.succ_le_of_lt ha)
  rw [Nat.succ_mul] at this
  omega

/-- The ids of a layout are distinct. -/
theorem Slot.groupId_inj {l : Layout} {a b : Slot} (ha : a.InLayout l) (hb : b.InLayout l)
    (h : a.groupId l = b.groupId l) : a = b := by
  cases a <;> cases b <;> simp only [Slot.groupId, Slot.InLayout] at ha hb h
  case index.index g g' => rw [h]
  case index.chunk g g' => omega
  case index.indexSib g level g' => omega
  case index.chunkSib g level g' => omega
  case chunk.index g g' => omega
  case chunk.chunk g g' => rw [show g = g' by omega]
  case chunk.indexSib g level g' => omega
  case chunk.chunkSib g level g' => omega
  case indexSib.index level g g' => omega
  case indexSib.chunk level g g' => omega
  case indexSib.indexSib level g level' g' =>
    obtain ⟨rfl, rfl⟩ := mul_add_inj ha.2 hb.2 (by omega : level * l.kIndex + g = level' * l.kIndex + g')
    rfl
  case indexSib.chunkSib level g level' g' =>
    have := mul_add_lt_mul ha.1 ha.2
    omega
  case chunkSib.index level g g' => omega
  case chunkSib.chunk level g g' => omega
  case chunkSib.indexSib level g level' g' =>
    have := mul_add_lt_mul hb.1 hb.2
    omega
  case chunkSib.chunkSib level g level' g' =>
    obtain ⟨rfl, rfl⟩ := mul_add_inj ha hb (by omega : level * l.kChunk + g = level' * l.kChunk + g')
    rfl

/-- The ids and places of the main groups do not depend on the sibling levels. -/
theorem Slot.main_layout {l l' : Layout} {slot : Slot} (hslot : slot.isSib = false)
    (hi : l'.kIndex = l.kIndex) (hc : l'.kChunk = l.kChunk) :
    slot.groupId l' = slot.groupId l ∧ (slot.InLayout l' ↔ slot.InLayout l) := by
  cases slot with
  | index g => simp [groupId, InLayout, hi]
  | chunk g => simp [groupId, InLayout, hi, hc]
  | indexSib level g => simp [isSib] at hslot
  | chunkSib level g => simp [isSib] at hslot

/-! ### Groups ahead of the requests -/

/-- All requests made with a key, id and table size used fewer relocations than `used`. -/
def Unspent (requests : List HintState) (prpKey : Bytes) (groupId n used : ℕ) : Prop :=
  ∀ q ∈ requests, q.prpKey = prpKey → q.groupId = groupId → q.n = n → q.relocated.length < used

/-- The number of relocations behind the next request of a group. -/
def HarmonyGroup.next (group : HarmonyGroup) : ℕ :=
  group.relocated.length + if group.inFlight = .idle then 0 else 1

/-- The group of a slot of the layout, ahead of all requests. -/
structure FreshAt (requests : List HintState) (l : Layout) (e : Slot × HarmonyGroup) : Prop where
  inLayout : e.1.InLayout l
  groupId : e.2.groupId = e.1.groupId l
  unspent : Unspent requests e.2.prpKey e.2.groupId e.2.n e.2.next

/-- The groups in memory are those of a layout and ahead of all requests. -/
def Fresh (requests : List HintState) (l : Layout) (groups : GroupMap) : Prop :=
  ∀ e ∈ groups, FreshAt requests l e

namespace Fresh

variable {requests : List HintState} {l : Layout} {groups new : GroupMap}

theorem nil : Fresh requests l [] := fun _ h => absurd h List.not_mem_nil

theorem mono (h : Fresh requests l groups) (hsub : new ⊆ groups) : Fresh requests l new :=
  fun e he => h e (hsub he)

theorem insert (h : Fresh requests l groups) (hnew : Fresh requests l new) :
    Fresh requests l (insertGroups groups new) := by
  intro e he
  rcases List.mem_append.1 he with he | he
  · exact hnew e he
  · exact h e (List.mem_of_mem_filter he)

/-- Main groups stay where they are when only the sibling levels change. -/
theorem relayout (h : Fresh requests l groups) {l' : Layout}
    (hmain : ∀ e ∈ groups, e.1.isSib = false) (hi : l'.kIndex = l.kIndex)
    (hc : l'.kChunk = l.kChunk) : Fresh requests l' groups := by
  intro e he
  obtain ⟨hid, hin⟩ := Slot.main_layout (hmain e he) hi hc
  obtain ⟨hplaced, hgroup, hunspent⟩ := h e he
  exact ⟨hin.2 hplaced, hgroup.trans hid.symm, hunspent⟩

end Fresh

/-! ### One request -/

/-- A group goes on from `group` to `group'`, and builds `built` on the way. -/
structure Advances (group group' : HarmonyGroup) (built : List HintState) : Prop where
  prpKey : group'.prpKey = group.prpKey
  groupId : group'.groupId = group.groupId
  n : group'.n = group.n
  next : group.next ≤ group'.next
  same : ∀ q ∈ built, q.prpKey = group.prpKey ∧ q.groupId = group.groupId ∧ q.n = group.n
  between : ∀ q ∈ built, group.next ≤ q.relocated.length ∧ q.relocated.length < group'.next
  nodup : built.Nodup

theorem Advances.refl (group : HarmonyGroup) : Advances group group [] :=
  ⟨rfl, rfl, rfl, le_rfl, fun _ h => absurd h List.not_mem_nil,
    fun _ h => absurd h List.not_mem_nil, List.nodup_nil⟩

section Advances

variable (locate : HintState → ℕ → Option ℕ) (maxQueries : ℕ → ℕ)

theorem buildRequest_advances (group : HarmonyGroup) (q : ℕ) :
    Advances group (buildRequest locate maxQueries group q).1
      (buildRequest locate maxQueries group q).2 := by
  unfold buildRequest
  split
  · exact .refl group
  · rename_i hidle
    have hidle : group.inFlight = .idle := by
      by_contra h
      exact hidle (.inl h)
    split
    · exact .refl group
    · refine ⟨rfl, rfl, rfl, ?_, ?_, ?_, List.nodup_singleton _⟩
      · simp [HarmonyGroup.next, hidle]
      · simp
      · simp [HarmonyGroup.next, hidle]

theorem buildRequestPair_advances (group : HarmonyGroup) (q₁ q₂ : ℕ) :
    Advances group (buildRequestPair locate maxQueries group q₁ q₂).1
      (buildRequestPair locate maxQueries group q₁ q₂).2 := by
  unfold buildRequestPair
  split
  · exact .refl group
  · rename_i hidle
    have hidle : group.inFlight = .idle := by
      by_contra h
      exact hidle (.inl h)
    split
    · exact .refl group
    · dsimp only
      split
      · refine ⟨rfl, rfl, rfl, ?_, ?_, ?_, List.nodup_nil⟩
        · simp [HarmonyGroup.next, hidle]
        · simp
        · simp
      · refine ⟨rfl, rfl, rfl, ?_, ?_, ?_, ?_⟩
        · simp only [HarmonyGroup.next, hidle, List.length_append, List.length_singleton, if_true]
          omega
        · simp
        · simp [HarmonyGroup.next, hidle]
        · -- The logs of the two requests have different lengths.
          refine List.nodup_cons.2 ⟨fun hmem => ?_, List.nodup_singleton _⟩
          have hlog := congrArg (fun x => x.relocated.length) (List.mem_singleton.1 hmem)
          simp at hlog

theorem processResponse_advances (group : HarmonyGroup) (wellFormed : Bool) :
    Advances group (processResponse group wellFormed) [] := by
  unfold processResponse
  split
  · exact .refl group
  · rename_i segment hflight
    split
    · refine ⟨rfl, rfl, rfl, ?_, by simp, by simp, List.nodup_nil⟩
      simp [HarmonyGroup.next, hflight]
    · exact .refl group
  · rename_i second hflight
    split
    · refine ⟨rfl, rfl, rfl, ?_, by simp, by simp, List.nodup_nil⟩
      simp [HarmonyGroup.next, hflight]
    · exact .refl group

end Advances

/-- What every allowed run keeps. -/
structure Inv (s : State) : Prop where
  nodup : s.requests.Nodup
  fresh : Fresh s.requests s.client.layout s.client.groups

/-- **One group goes on.** -/
theorem Inv.onGroup {s : State} (h : Inv s) (slot : Slot)
    {f : HarmonyGroup → HarmonyGroup × List HintState}
    (hf : ∀ group, Advances group (f group).1 (f group).2) : Inv (s.onGroup slot f) := by
  unfold State.onGroup
  split
  · exact h
  · rename_i group hlookup
    have hmem := mem_of_lookup_eq_some hlookup
    obtain ⟨hin, hid, hold⟩ := h.fresh _ hmem
    have ha := hf group
    constructor
    · refine List.nodup_append.2 ⟨ha.nodup, h.nodup, ?_⟩
      intro q hq q' hq' heq
      subst heq
      obtain ⟨hkey, hgid, hn⟩ := ha.same q hq
      have hlt := hold q hq' hkey hgid hn
      have hge := (ha.between q hq).1
      change q.relocated.length < group.next at hlt
      omega
    · intro e he
      obtain ⟨e', he', rfl⟩ := List.mem_map.1 he
      split_ifs with hslot
      · refine ⟨hin, ha.groupId.trans hid, fun q hq hkey hgid hn => ?_⟩
        rw [ha.prpKey] at hkey
        rw [ha.groupId] at hgid
        rw [ha.n] at hn
        rcases List.mem_append.1 hq with hq | hq
        · exact (ha.between q hq).2
        · exact lt_of_lt_of_le (hold q hq hkey hgid hn) ha.next
      · obtain ⟨hin', hid', hold'⟩ := h.fresh e' he'
        refine ⟨hin', hid', fun q hq hkey hgid hn => ?_⟩
        rcases List.mem_append.1 hq with hq | hq
        · -- The request is of the group at `slot`, and this one is at another.
          have hsame : e'.1.groupId s.client.layout = slot.groupId s.client.layout := by
            rw [← hid', ← hgid, (ha.same q hq).2.1]
            exact hid
          exact absurd (Slot.groupId_inj hin' hin hsame) hslot
        · exact hold' q hq hkey hgid hn

/-! ### Loading hints -/

section Loading

variable (derive : PrpKey → ℕ → Bytes) (requests : List HintState)

/-- No request was made for any of these tables under `key`. -/
def SlotsUnspent (key : PrpKey) (l : Layout) (slots : List (Slot × ℕ)) : Prop :=
  ∀ e ∈ slots, Unspent requests (derive key (e.1.groupId l)) (e.1.groupId l) e.2 0

/-- The group numbering of `db` with a number of INDEX sibling levels. -/
abbrev layoutOf (db : DatabaseInfo) (indexSibLevels : ℕ) : Layout :=
  ⟨db.indexK.toNat, db.chunkK.toNat, indexSibLevels⟩

abbrev MainUnspent (key : PrpKey) (db : DatabaseInfo) : Prop :=
  SlotsUnspent derive requests key (layoutOf db 0) (mainSlots db)

abbrev SibUnspent (key : PrpKey) (db : DatabaseInfo) (tops : List Bucket.TreeTop) : Prop :=
  SlotsUnspent derive requests key (layoutOf db (Client.sibLevels db tops).1)
    (siblingSlots db (Client.sibLevels db tops).1 (Client.sibLevels db tops).2)

/-- The groups of a bundle are those of the layout, and no request was made with one of them since
it was saved. -/
def BundleUnspent (key : PrpKey) (l : Layout) (bundle : List (Slot × SavedGroup)) : Prop :=
  ∀ e ∈ bundle, e.1.InLayout l ∧
    Unspent requests (derive key (e.1.groupId l)) (e.1.groupId l) e.2.n e.2.relocated.length

variable {derive requests}

theorem fresh_newGroups {key : PrpKey} {l : Layout} {slots : List (Slot × ℕ)}
    (hin : ∀ e ∈ slots, e.1.InLayout l) (h : SlotsUnspent derive requests key l slots) :
    Fresh requests l (newGroups derive key l slots) := by
  intro e he
  obtain ⟨e', he', rfl⟩ := List.mem_map.1 he
  have hmem := (List.takeWhile_sublist _).subset he'
  exact ⟨hin e' hmem, rfl, h e' hmem⟩

theorem mainSlots_mem {db : DatabaseInfo} {e : Slot × ℕ} (he : e ∈ mainSlots db) (levels : ℕ) :
    e.1.isSib = false ∧ e.1.InLayout (layoutOf db levels) := by
  rcases List.mem_append.1 he with he | he
  · obtain ⟨g, hg, rfl⟩ := List.mem_map.1 he
    exact ⟨rfl, List.mem_range.1 hg⟩
  · obtain ⟨g, hg, rfl⟩ := List.mem_map.1 he
    exact ⟨rfl, List.mem_range.1 hg⟩

theorem length_siblingSizes (bins levels : ℕ) : (siblingSizes bins levels).length = levels := by
  induction levels generalizing bins with
  | zero => rfl
  | succ levels ih => rw [siblingSizes, List.length_cons, ih]

theorem siblingSlots_mem {db : DatabaseInfo} {i c : ℕ} {e : Slot × ℕ} (he : e ∈ siblingSlots db i c) :
    e.1.InLayout (layoutOf db i) := by
  rcases List.mem_append.1 he with he | he
  · obtain ⟨⟨n, level⟩, hlevel, he⟩ := List.mem_flatMap.1 he
    obtain ⟨g, hg, rfl⟩ := List.mem_map.1 he
    have hlt := (List.mem_zipIdx hlevel).2.1
    rw [length_siblingSizes, zero_add] at hlt
    exact ⟨hlt, List.mem_range.1 hg⟩
  · obtain ⟨⟨n, level⟩, -, he⟩ := List.mem_flatMap.1 he
    obtain ⟨g, hg, rfl⟩ := List.mem_map.1 he
    exact List.mem_range.1 hg

/-- The groups in memory are ahead of the requests, and those of `db`'s layout if there are any. -/
def Settled (requests : List HintState) (db : DatabaseInfo) (c : Client) : Prop :=
  Fresh requests c.layout c.groups ∧
    (c.groups = [] ∨ c.layout.kIndex = db.indexK.toNat ∧ c.layout.kChunk = db.chunkK.toNat)

variable {db : DatabaseInfo} {c : Client}

theorem Settled.clearMain (h : Settled requests db c) : Settled requests db c.clearMain := by
  refine ⟨h.1.mono (List.filter_subset_self _), ?_⟩
  rcases h.2 with hnil | hk
  · left
    change c.groups.filter _ = []
    rw [hnil, List.filter_nil]
  · exact .inr hk

theorem settled_invalidateGroups : Settled requests db c.invalidateGroups := ⟨.nil, .inl rfl⟩

/-- The key does not matter for the groups that exist. -/
theorem Settled.withKey (h : Settled requests db c) (backend : UInt8) (key : PrpKey) :
    Settled requests db { c with prpBackend := backend, masterPrpKey := key } := h

theorem Settled.withMainGroups (h : Settled requests db c)
    (hslots : MainUnspent derive requests c.masterPrpKey db) :
    Settled requests db (c.withMainGroups derive db) := by
  refine ⟨?_, .inr ⟨rfl, rfl⟩⟩
  have hold : Fresh requests (layoutOf db c.layout.indexSibLevels) c.groups := by
    rcases h.2 with hnil | ⟨hi, hc⟩
    · rw [hnil]
      exact .nil
    · rw [layoutOf, ← hi, ← hc]
      exact h.1
  refine hold.insert (fresh_newGroups (fun e he => (mainSlots_mem he _).2) fun e he => ?_)
  obtain ⟨hid, -⟩ : _ ∧ _ := @Slot.main_layout (layoutOf db 0)
    (layoutOf db c.layout.indexSibLevels) _ (mainSlots_mem he 0).1 rfl rfl
  rw [hid]
  exact hslots e he

theorem fetchV1_settled (fetch : Fetch) (h : Settled requests db c)
    (hslots : MainUnspent derive requests c.masterPrpKey db) :
    Settled requests db (c.fetchV1 derive db fetch).2 := by
  have hcreated := h.withMainGroups hslots
  unfold Client.fetchV1
  split
  · exact hcreated
  · split
    · split
      · exact hcreated.clearMain
      · exact hcreated
    · exact hcreated

/-- The key under which a fetch of main hints creates groups. -/
def fetchKey (c : Client) (db : DatabaseInfo) (fetch : Fetch) : PrpKey :=
  if Client.shouldUseV2HintPool c.useV2Protocol db.dbId then
    match fetch.pool with
    | .key _ key => key
    | _ => c.masterPrpKey
  else c.masterPrpKey

theorem fetchMain_settled (fetch : Fetch) (h : Settled requests db c)
    (hslots : MainUnspent derive requests (fetchKey c db fetch) db) :
    Settled requests db (c.fetchMain derive db fetch).2 := by
  unfold Client.fetchMain
  rw [fetchKey] at hslots
  split_ifs at hslots ⊢ with hv2
  · unfold Client.fetchV2
    cases hpool : fetch.pool with
    | failed e =>
      dsimp only
      split
      · exact h
      · exact h.clearMain
    | unavailable =>
      rw [hpool] at hslots
      exact fetchV1_settled fetch h hslots
    | key backend key =>
      rw [hpool] at hslots
      have hkeyed := h.withKey backend key
      have hfailed : Settled requests db (if fetch.secondary then c else
          Client.clearMain { c with prpBackend := backend, masterPrpKey := key }) := by
        split
        · exact h
        · exact hkeyed.clearMain
      dsimp only
      split
      · exact hfailed
      · split
        · exact hfailed
        · split
          · exact hkeyed.clearMain.withMainGroups hslots
          · exact hkeyed.withMainGroups hslots
  · exact fetchV1_settled fetch h hslots

variable {maxQueries : ℕ → ℕ} {H : Bytes → Hash256}

/-- The groups a bundle is restored to. -/
def restoredGroups (derive : PrpKey → ℕ → Bytes) (key : PrpKey) (l : Layout)
    (bundle : List (Slot × SavedGroup)) : GroupMap :=
  bundle.map fun e => (e.1,
    ⟨⟨derive key (e.1.groupId l), e.1.groupId l, e.2.n, e.2.relocated, e.2.queryCount⟩, .idle⟩)

variable {bundle : List (Slot × SavedGroup)} {files : CacheDir}

/-- A bundle of restorable groups is loaded. -/
theorem loadBundleIntoGroups_of_restorable (h : ∀ e ∈ bundle, e.2.Restorable maxQueries) :
    c.loadBundleIntoGroups derive maxQueries db bundle = .ok { c with
      groups := restoredGroups derive c.masterPrpKey (Client.bundleLayout db bundle) bundle
      layout := Client.bundleLayout db bundle
      loadedDbId := if Client.fullMain db bundle then some db.dbId else none
      siblingHintsLoaded :=
        if Client.fullMain db bundle && bundle.any (fun e => e.1.isSib) then some db.dbId
        else none } := by
  refine bind_eq_ok.2 ⟨_, mapM_eq_ok.2 (List.forall₂_map_right_iff.2
    (List.forall₂_same.2 fun e he => ?_)), rfl⟩
  refine bind_eq_ok.2 ⟨_, ?_, rfl⟩
  rw [deserializeGroup, if_pos (h e he)]

theorem restorable_of_loadBundleIntoGroups {c' : Client}
    (h : c.loadBundleIntoGroups derive maxQueries db bundle = .ok c') :
    ∀ e ∈ bundle, e.2.Restorable maxQueries := by
  intro e he
  obtain ⟨groups, hgroups, -⟩ := bind_eq_ok.1 h
  obtain ⟨i, hi⟩ := List.mem_iff_getElem?.1 he
  obtain ⟨b, -, hb⟩ := getElem?_of_mapM_eq_ok hgroups hi
  obtain ⟨group, hgroup, -⟩ := bind_eq_ok.1 hb
  by_contra hnot
  rw [deserializeGroup, if_neg hnot] at hgroup
  cases hgroup

theorem fresh_restoredGroups {key : PrpKey} {l : Layout}
    (h : BundleUnspent derive requests key l bundle) :
    Fresh requests l (restoredGroups derive key l bundle) := by
  intro e he
  obtain ⟨e', he', rfl⟩ := List.mem_map.1 he
  obtain ⟨hin, hunspent⟩ := h e' he'
  exact ⟨hin, rfl, hunspent⟩

/-- The cache file has all main groups of `db`, so that no hints are fetched. -/
def CacheHit (H : Bytes → Hash256) (maxQueries : ℕ → ℕ) (c : Client)
    (files : CacheDir) (db : DatabaseInfo) : Prop :=
  c.hintCacheDir = true ∧ ∃ file, files (c.cachePathFor H db) = some file ∧
    file.fingerprint = c.cachePathFor H db ∧ (∀ e ∈ file.bundle, e.2.Restorable maxQueries) ∧
    Client.fullMain db file.bundle = true

/-- What a restore leaves behind, and that it is a cache hit if it says so. -/
theorem restoreHintsFromCache_settled {readable : Bool} {restored : Bool} {c' : Client}
    (h : c.invalidateGroups.restoreHintsFromCache H derive maxQueries files db readable = .ok (restored, c'))
    (hfile : c.hintCacheDir = true → ∀ file, files (c.cachePathFor H db) = some file →
      BundleUnspent derive requests c.masterPrpKey (Client.bundleLayout db file.bundle) file.bundle) :
    Settled requests db c' ∧ c'.masterPrpKey = c.masterPrpKey ∧
      c'.useV2Protocol = c.useV2Protocol ∧
      (CacheHit H maxQueries c files db → restored = true ∧ c'.loadedDbId = some db.dbId) := by
  have hnothing : Settled requests db c.invalidateGroups := settled_invalidateGroups
  unfold Client.restoreHintsFromCache at h
  split at h
  · -- No cache directory.
    rename_i hdir
    cases h
    refine ⟨hnothing, rfl, rfl, fun hhit => ?_⟩
    have hset : c.invalidateGroups.hintCacheDir = true := hhit.1
    rw [hset] at hdir
    cases hdir
  rename_i hdir
  have hdir : c.hintCacheDir = true := by
    cases hset : c.hintCacheDir with
    | true => rfl
    | false => exact absurd (show (!c.invalidateGroups.hintCacheDir) = true from by
        rw [show c.invalidateGroups.hintCacheDir = false from hset]; rfl) hdir
  split at h
  · cases h
  split at h
  · -- No file.
    rename_i hnone
    cases h
    refine ⟨hnothing, rfl, rfl, fun hhit => ?_⟩
    obtain ⟨-, file, hsome, -⟩ := hhit
    cases hnone.symm.trans hsome
  · rename_i file hsome
    have hunspent := hfile hdir file hsome
    split at h
    · rename_i c'' hload
      cases h
      unfold Client.loadHintsBytes at hload
      split at hload
      · cases hload
      · have hrestorable := restorable_of_loadBundleIntoGroups hload
        rw [loadBundleIntoGroups_of_restorable hrestorable] at hload
        cases hload
        refine ⟨⟨fresh_restoredGroups hunspent, .inr ⟨rfl, rfl⟩⟩, rfl, rfl, fun hhit => ⟨rfl, ?_⟩⟩
        obtain ⟨-, file', hsome', -, -, hfull⟩ := hhit
        cases hsome.symm.trans hsome'
        exact if_pos hfull
    · rename_i e hload
      cases h
      refine ⟨hnothing, rfl, rfl, fun hhit => ?_⟩
      -- A hit is loaded, so it cannot have been rejected.
      obtain ⟨-, file', hsome', hfp, hrestorable, -⟩ := hhit
      cases hsome.symm.trans hsome'
      have hfp : file.fingerprint = c.invalidateGroups.cachePathFor H db := hfp
      unfold Client.loadHintsBytes at hload
      rw [if_neg (not_not.2 hfp), loadBundleIntoGroups_of_restorable hrestorable] at hload
      cases hload

theorem ensureGroupsReady_fresh {fetch : Fetch} (h : Fresh requests c.layout c.groups)
    (hfile : c.ready db = false → c.hintCacheDir = true → ∀ file, files (c.cachePathFor H db) = some file →
      BundleUnspent derive requests c.masterPrpKey (Client.bundleLayout db file.bundle) file.bundle)
    (hfetch : c.ready db = false → ¬CacheHit H maxQueries c files db →
      MainUnspent derive requests (fetchKey c db fetch) db) :
    Fresh requests (c.ensureGroupsReady H derive maxQueries files db fetch).2.1.layout
      (c.ensureGroupsReady H derive maxQueries files db fetch).2.1.groups := by
  unfold Client.ensureGroupsReady
  split
  · exact h
  rename_i hready
  have hready := Bool.eq_false_iff.2 hready
  split
  · exact .nil
  · rename_i restored c' hrestore
    obtain ⟨hsettled, hkey, hv2, hhit⟩ := restoreHintsFromCache_settled hrestore (hfile hready)
    split
    · exact hsettled.1
    · rename_i hmiss
      have hnohit : ¬CacheHit H maxQueries c files db := fun hit => by
        obtain ⟨rfl, hloaded⟩ := hhit hit
        exact hmiss (by rw [hloaded]; simp)
      have hslots : MainUnspent derive requests (fetchKey c' db fetch) db := by
        rw [fetchKey, hkey, hv2]
        exact hfetch hready hnohit
      have hfetched := fetchMain_settled fetch hsettled hslots
      split
      · rename_i e c'' hres
        rw [hres] at hfetched
        exact hfetched.1
      · rename_i c'' hres
        rw [hres] at hfetched
        exact hfetched.1

theorem clearSiblings_fresh (h : Fresh requests c.layout c.groups) :
    Fresh requests c.layout c.clearSiblings.groups :=
  h.mono (List.filter_subset_self _)

theorem withSiblings_fresh {tops : List Bucket.TreeTop} (kept : ℕ)
    (h : Fresh requests c.layout c.groups) (hi : c.layout.kIndex = db.indexK.toNat)
    (hc : c.layout.kChunk = db.chunkK.toNat)
    (hslots : SibUnspent derive requests c.masterPrpKey db tops) :
    Fresh requests (c.withSiblings derive db tops kept).layout
      (c.withSiblings derive db tops kept).groups := by
  unfold Client.withSiblings
  rw [hi, hc]
  refine Fresh.insert ?_ (fresh_newGroups ?_ ?_)
  · refine (clearSiblings_fresh h).relayout (fun e he => ?_) hi.symm hc.symm
    have := (List.mem_filter.1 he).2
    simpa using this
  · exact fun e he => siblingSlots_mem (List.mem_of_mem_take he)
  · exact fun e he => hslots e (List.mem_of_mem_take he)

theorem ensureSiblingGroupsReady_fresh {fetch : Fetch} {tops : List Bucket.TreeTop}
    (h : Fresh requests c.layout c.groups)
    (hload : c.siblingsReady db tops = false → c.layout.kIndex = db.indexK.toNat ∧
      c.layout.kChunk = db.chunkK.toNat ∧ SibUnspent derive requests c.masterPrpKey db tops) :
    Fresh requests (c.ensureSiblingGroupsReady H derive files db tops fetch).2.1.layout
      (c.ensureSiblingGroupsReady H derive files db tops fetch).2.1.groups := by
  unfold Client.ensureSiblingGroupsReady
  split
  · exact h
  split
  · exact h
  rename_i hready
  obtain ⟨hi, hc, hslots⟩ := hload (Bool.eq_false_iff.2 hready)
  have hpartly : Fresh requests
      (if fetch.secondary then c.clearSiblings else c.withSiblings derive db tops fetch.kept).layout
      (if fetch.secondary then c.clearSiblings
        else c.withSiblings derive db tops fetch.kept).groups := by
    split
    · exact clearSiblings_fresh h
    · exact withSiblings_fresh fetch.kept h hi hc hslots
  dsimp only
  split
  · exact hpartly
  split
  · exact hpartly
  · exact withSiblings_fresh _ h hi hc hslots

end Loading

/-! ### Runs -/

section Runs

variable (H : Bytes → Hash256) (derive : PrpKey → ℕ → Bytes)
variable (locate : HintState → ℕ → Option ℕ) (maxQueries : ℕ → ℕ)

/-- Hints are loaded only where they are unspent. Main hints that are not in memory: the cache file
for the database, if there is one, was written after the last request with its groups; and if it
does not hold all main groups, no request was made with the key in force (the one the pool sends,
or the client's own) for any of the database's tables. Sibling hints that are not in memory: the
main groups are those of this database, and no request was made with the client's key for any of
its sibling tables. -/
def Allowed (s : State) : Event → Prop
  | .ensureGroupsReady db fetch =>
    s.client.ready db = false →
      (s.client.hintCacheDir = true → ∀ file,
        s.cacheFiles (s.client.cachePathFor H db) = some file →
        BundleUnspent derive s.requests s.client.masterPrpKey
          (Client.bundleLayout db file.bundle) file.bundle) ∧
      (¬CacheHit H maxQueries s.client s.cacheFiles db →
        SlotsUnspent derive s.requests (fetchKey s.client db fetch)
          ⟨db.indexK.toNat, db.chunkK.toNat, 0⟩ (mainSlots db))
  | .ensureSiblingGroupsReady db tops _ =>
    s.client.siblingsReady db tops = false →
      s.client.layout.kIndex = db.indexK.toNat ∧ s.client.layout.kChunk = db.chunkK.toNat ∧
      SlotsUnspent derive s.requests s.client.masterPrpKey
        ⟨db.indexK.toNat, db.chunkK.toNat, (Client.sibLevels db tops).1⟩
        (siblingSlots db (Client.sibLevels db tops).1 (Client.sibLevels db tops).2)
  | _ => True

variable {H derive locate maxQueries}

theorem Inv.invalidated {s : State} (h : Inv s) (c : Client) (hc : c.groups = []) :
    Inv { s with client := c } := by
  refine ⟨h.nodup, ?_⟩
  rw [hc]
  exact .nil

theorem step_inv (s : State) (e : Event) (h : Inv s) (hallowed : Allowed H derive maxQueries s e) :
    Inv (step H derive locate maxQueries s e) := by
  cases e with
  | fetchCatalog catalog => exact ⟨h.nodup, h.fresh⟩
  | ensureGroupsReady db fetch =>
    exact ⟨h.nodup, ensureGroupsReady_fresh h.fresh (fun hready => (hallowed hready).1)
      fun hready => (hallowed hready).2⟩
  | ensureSiblingGroupsReady db tops fetch =>
    exact ⟨h.nodup, ensureSiblingGroupsReady_fresh h.fresh hallowed⟩
  | buildRequest slot q => exact h.onGroup slot fun group => buildRequest_advances _ _ group q
  | buildRequestPair slot q₁ q₂ =>
    exact h.onGroup slot fun group => buildRequestPair_advances _ _ group q₁ q₂
  | processResponse slot wellFormed =>
    exact h.onGroup slot fun group => processResponse_advances group wellFormed
  | persistHintsToCache db writable => exact ⟨h.nodup, h.fresh⟩
  | setMasterKey key => exact h.invalidated _ rfl
  | setPrpBackend backend =>
    rw [step]
    split
    · exact h.invalidated _ rfl
    · exact h
  | setUseV2Protocol v2 =>
    rw [step]
    split
    · exact h.invalidated _ rfl
    · exact h
  | setDbId dbId =>
    rw [step]
    split
    · exact h
    · exact h.invalidated _ rfl
  | setHintCacheDir set => exact ⟨h.nodup, h.fresh⟩
  | invalidateSessionBindings => exact h.invalidated _ rfl
  | restart key hintCacheDir => exact h.invalidated _ rfl

theorem init_inv (key : PrpKey) (hintCacheDir : Bool) : Inv (State.init key hintCacheDir) :=
  ⟨List.nodup_nil, .nil⟩

variable (H derive locate maxQueries)

/-- **In every run that loads only unspent hints, no two requests are built from the same hint
state.** -/
theorem run_requests_nodup (key : PrpKey) (hintCacheDir : Bool) (es : List Event)
    (hallowed : EachStep (step H derive locate maxQueries) (Allowed H derive maxQueries)
      (State.init key hintCacheDir) es) :
    (runFrom (step H derive locate maxQueries) (State.init key hintCacheDir) es).requests.Nodup :=
  (hallowed.invariant (I := Inv) (fun s e h => step_inv s e h) (init_inv key hintCacheDir)).nodup

end Runs

/-! ### Samples -/

/-- A delta database of sixteen bins with three INDEX and three CHUNK groups. -/
def sampleDelta : DatabaseInfo where
  dbId := 1
  kind := .delta 100
  name := "delta"
  height := 200
  indexBins := 16
  chunkBins := 16
  indexK := 3
  chunkK := 3
  tagSeed := 0
  dpfNIndex := 7
  dpfNChunk := 7
  hasBucketMerkle := false
  indexMasterSeed := 0
  chunkMasterSeed := 0
  anchorKind := 0
  anchorBytes := []

/-- A fetch over one connection without failures. -/
def goodFetch : Fetch := ⟨true, true, false, .unavailable, none, 0⟩

/-- Hints for the delta database, and one INDEX query. -/
def queryDelta : List Event :=
  [.ensureGroupsReady sampleDelta goodFetch, .buildRequestPair (.index 0) 1 2,
    .processResponse (.index 0) true]

/-- The sample's steps: a query relocates the segment of its own number, eight queries a group. -/
def sampleStep : State → Event → State :=
  step sha256 deriveGroupKey (fun _ q => some q) fun _ => 8

/-- **Going to another database and back repeats a hint state**: the hints are fetched again under
the same key. -/
theorem requests_repeat_after_refetch :
    ¬(runFrom sampleStep (State.init (List.replicate 16 7) false)
      (queryDelta ++ [.setDbId 0] ++ queryDelta)).requests.Nodup := by
  decide

/-- With a new master key in between nothing is repeated. -/
theorem run_requests_nodup_rekeyed :
    (runFrom sampleStep (State.init (List.replicate 16 7) false)
      (queryDelta ++ [.setMasterKey (List.replicate 16 8)] ++ queryDelta)).requests.Nodup := by
  have hallowed : EachStep sampleStep (Allowed sha256 deriveGroupKey fun _ => 8)
      (State.init (List.replicate 16 7) false)
      (queryDelta ++ [.setMasterKey (List.replicate 16 8)] ++ queryDelta) := by
    refine eachStep_cons.2 ⟨fun _ => ⟨fun hdir => (by cases hdir), fun _ => ?_⟩,
      eachStep_cons.2 ⟨trivial, eachStep_cons.2 ⟨trivial, eachStep_cons.2 ⟨trivial,
      eachStep_cons.2 ⟨fun _ => ⟨fun hdir => (by cases hdir), fun _ => ?_⟩,
      eachStep_cons.2 ⟨trivial, eachStep_cons.2 ⟨trivial, trivial⟩⟩⟩⟩⟩⟩⟩
    · unfold SlotsUnspent Unspent
      decide
    · unfold SlotsUnspent Unspent
      decide
  exact run_requests_nodup sha256 deriveGroupKey (fun _ q => some q) (fun _ => 8)
    (List.replicate 16 7) false _ hallowed

end BitcoinPir.HarmonyClient
