import BlackPearl.Nfs.Handles

/-!
# The tables of the handler

The table of handles, the table of positions and the list of recency describe the same handles
(`Tables`), and the list is in the order of the last touches. Touching a handle moves it to the end of
the list; the loop over the oldest handles ends before the list does, with `handleCacheSize` handles at
most (`Tables.dropOldest`).
-/

set_option autoImplicit false

namespace BlackPearl.Nfs

open BlackPearl.Library BlackPearl.Library.Recency

/-! ## The list -/

theorem moveToBack_perm (address : ℕ) (elements : List Element) :
    (moveToBack address elements).Perm elements := by
  have hperm := List.filter_append_perm (fun e : Element => decide (e.address = address)) elements
  have hnot : (elements.filter fun e => decide (e.address ≠ address)) =
      elements.filter fun e => !decide (e.address = address) := by
    congr 1
    funext e
    exact decide_not
  rw [moveToBack, hnot]
  exact List.perm_append_comm.trans hperm

/-- The element at an address is the one of its handle. -/
theorem map_value_moveToBack {elements : List Element} {address : ℕ} {d : Digest}
    (haddress : (elements.map Element.address).Nodup) (hvalue : (elements.map Element.value).Nodup)
    (h : ⟨address, d⟩ ∈ elements) : (moveToBack address elements).map Element.value =
      (elements.map Element.value).erase d ++ [d] := by
  have hsame : ∀ e ∈ elements, (e.address = address ↔ e.value = d) := by
    intro e he
    constructor
    · intro heq
      rw [List.inj_on_of_nodup_map haddress he h heq]
    · intro heq
      rw [List.inj_on_of_nodup_map hvalue he h heq]
  have hrest : (elements.filter fun e => decide (e.address ≠ address)).map Element.value =
      (elements.map Element.value).erase d := by
    rw [hvalue.erase_eq_filter, List.filter_map]
    congr 1
    apply List.filter_congr
    intro e he
    show decide (e.address ≠ address) = (e.value != d)
    by_cases heq : e.value = d
    · simp [heq, (hsame e he).2 heq]
    · simp [heq, mt (hsame e he).1 heq]
  have hlast : elements.filter (fun e => decide (e.address = address)) = [⟨address, d⟩] := by
    have hnodup : elements.Nodup := haddress.of_map
    have heq : elements.filter (fun e => decide (e.address = address)) =
        elements.filter fun e => e = (⟨address, d⟩ : Element) := by
      apply List.filter_congr
      intro e he
      rw [decide_eq_decide]
      constructor
      · intro h'
        exact List.inj_on_of_nodup_map haddress he h h'
      · rintro rfl
        rfl
    rw [heq, List.filter_eq, List.count_eq_one_of_mem hnodup h]
    rfl
  rw [moveToBack, List.map_append, hrest, hlast]
  rfl

/-! ## Agreement -/

/-- The two tables and the list have the same handles, each once. -/
structure Tables (h : StableHandleHandler) : Prop where
  positions : ∀ d, d ∈ h.handles ↔ d ∈ h.positions
  elements : ∀ d a, h.positions.lookup d = some a ↔ ⟨a, d⟩ ∈ h.recency
  once : (h.recency.map Element.value).Nodup
  addresses : (h.recency.map Element.address).Nodup
  allocated : ∀ e ∈ h.recency, e.address < h.allocated

theorem tables_empty : Tables {} where
  positions := by
    intro d
    exact Iff.rfl
  elements := by
    intro d a
    simp
  once := .nil
  addresses := .nil
  allocated := by
    intro e he
    cases he

variable {h : StableHandleHandler}

/-- The list has the handles of the table. -/
theorem Tables.mem_recency (ht : Tables h) (d : Digest) :
    d ∈ h.handles ↔ d ∈ h.recency.map Element.value := by
  rw [ht.positions]
  constructor
  · intro hd
    obtain ⟨a, ha⟩ := Table.lookup_of_mem hd
    exact List.mem_map_of_mem (f := Element.value) ((ht.elements d a).1 ha)
  · intro hd
    obtain ⟨e, he, rfl⟩ := List.mem_map.1 hd
    exact Table.mem_of_lookup ((ht.elements e.value e.address).2 he)

/-- It has as many elements as the table has entries. -/
theorem Tables.length_recency (ht : Tables h) : h.handles.entries.length = h.recency.length := by
  have hperm : h.handles.keys.Perm (h.recency.map Element.value) :=
    (List.perm_ext_iff_of_nodup h.handles.keys_nodup ht.once).2 ht.mem_recency
  have hlen := hperm.length_eq
  rwa [List.length_map, AList.keys, List.keys, List.length_map] at hlen

@[simp] theorem handles_touchLocked (h : StableHandleHandler) (d : Digest) :
    (h.touchLocked d).handles = h.handles := by
  unfold StableHandleHandler.touchLocked
  split
  · rfl
  · rfl

/-- Touching a handle that is in the table, or has just been stored. -/
theorem Tables.touch (ht : Tables h) (d : Digest) (handles : Table Digest StableHandleEntry)
    (hhandles : ∀ d', d' ∈ handles ↔ d' = d ∨ d' ∈ h.handles) :
    Tables ({ h with handles }.touchLocked d) ∧
      ({ h with handles }.touchLocked d).recency.map Element.value =
        (h.recency.map Element.value).erase d ++ [d] := by
  cases hd : h.positions.lookup d with
  | some a =>
    have hmem : ⟨a, d⟩ ∈ h.recency := (ht.elements d a).1 hd
    have hperm := moveToBack_perm a h.recency
    have heq : StableHandleHandler.touchLocked { h with handles } d =
        { h with handles, recency := moveToBack a h.recency } := by
      simp only [StableHandleHandler.touchLocked, hd]
    rw [heq]
    refine ⟨⟨fun d' => ?_, fun d' a' => ?_, ?_, ?_, fun e he => ?_⟩, ?_⟩
    · show d' ∈ handles ↔ d' ∈ h.positions
      rw [hhandles, ← ht.positions]
      constructor
      · rintro (rfl | hd')
        · exact (ht.positions d').2 (Table.mem_of_lookup hd)
        · exact hd'
      · exact Or.inr
    · exact (ht.elements d' a').trans hperm.mem_iff.symm
    · exact ((hperm.map _).nodup_iff).2 ht.once
    · exact ((hperm.map _).nodup_iff).2 ht.addresses
    · exact ht.allocated e (hperm.mem_iff.1 he)
    · exact map_value_moveToBack ht.addresses ht.once hmem
  | none =>
    have hnot : d ∉ h.handles := by
      rw [ht.positions]
      exact AList.lookup_eq_none.1 hd
    have hnew : d ∉ h.recency.map Element.value := by
      rw [← ht.mem_recency]
      exact hnot
    have hfresh : h.allocated ∉ h.recency.map Element.address := by
      intro hmem
      obtain ⟨e, he, heq⟩ := List.mem_map.1 hmem
      have hlt := ht.allocated e he
      omega
    have heq : StableHandleHandler.touchLocked { h with handles } d =
        { h with
          handles
          recency := h.recency ++ [⟨h.allocated, d⟩]
          positions := h.positions.insert d h.allocated
          allocated := h.allocated + 1 } := by
      simp only [StableHandleHandler.touchLocked, hd]
    rw [heq]
    refine ⟨⟨fun d' => ?_, fun d' a' => ?_, ?_, ?_, fun e he => ?_⟩, ?_⟩
    · show d' ∈ handles ↔ d' ∈ h.positions.insert d h.allocated
      rw [hhandles, AList.mem_insert, ht.positions]
    · show (h.positions.insert d h.allocated).lookup d' = some a' ↔ _
      rw [Table.lookup_insert, List.mem_append, List.mem_singleton, ← ht.elements d' a']
      split
      · next hd' =>
        subst hd'
        simp [hd, eq_comm]
      · next hd' => simp [hd']
    · rw [List.map_append]
      refine List.nodup_append.2 ⟨ht.once, List.nodup_singleton _, ?_⟩
      rintro d' hd' c hc rfl
      obtain rfl : d' = d := List.mem_singleton.1 hc
      exact hnew hd'
    · rw [List.map_append]
      refine List.nodup_append.2 ⟨ht.addresses, List.nodup_singleton _, ?_⟩
      rintro a' ha' c hc rfl
      obtain rfl : a' = h.allocated := List.mem_singleton.1 hc
      exact hfresh ha'
    · rcases List.mem_append.1 he with he | he
      · exact Nat.lt_succ_of_lt (ht.allocated e he)
      · rw [List.mem_singleton.1 he]
        exact Nat.lt_succ_self _
    · rw [List.map_append, List.erase_of_not_mem hnew]
      rfl

/-! ## The bound -/

/-- The tables after the oldest handle is dropped from all three. -/
theorem Tables.erase {oldest : Element} {newer : List Element}
    (ht : Tables { h with recency := oldest :: newer }) :
    Tables { h with
      handles := h.handles.erase oldest.value
      positions := h.positions.erase oldest.value
      recency := newer } where
  positions := by
    intro d
    show d ∈ h.handles.erase oldest.value ↔ d ∈ h.positions.erase oldest.value
    rw [AList.mem_erase, AList.mem_erase]
    exact and_congr_right' (ht.positions d)
  elements := by
    intro d a
    have hvalues := (List.nodup_cons.1 ht.once).1
    show (h.positions.erase oldest.value).lookup d = some a ↔ _
    rw [Table.lookup_erase]
    split
    · next hd =>
      constructor
      · intro hnone
        cases hnone
      · intro hmem
        exact absurd (hd ▸ List.mem_map_of_mem (f := Element.value) hmem) hvalues
    · next hd =>
      refine (ht.elements d a).trans ⟨fun hmem => ?_, List.mem_cons_of_mem _⟩
      refine (List.mem_cons.1 hmem).resolve_left fun heq => hd ?_
      rw [← heq]
  once := (List.nodup_cons.1 ht.once).2
  addresses := (List.nodup_cons.1 ht.addresses).2
  allocated e he := ht.allocated e (List.mem_cons_of_mem _ he)

/-- The loop keeps the order of the touches, and what it keeps was there. -/
theorem Tables.dropOldest {log : List Digest} :
    ∀ {elements : List Element} {h : StableHandleHandler},
      Tables { h with recency := elements } →
      Orders handleCacheSize log (elements.map Element.value) →
      ∃ h', h.dropOldest elements = some h' ∧ Tables h' ∧
        Orders handleCacheSize log (h'.recency.map Element.value) ∧
        h'.handles.entries.length ≤ handleCacheSize ∧
        ∀ d e, h'.handles.lookup d = some e → h.handles.lookup d = some e := by
  intro elements
  induction elements with
  | nil =>
    intro h ht ho
    have hlen : h.handles.entries.length = 0 := ht.length_recency
    refine ⟨_, ?_, ht, ho, ?_, fun d e he => he⟩
    · rw [StableHandleHandler.dropOldest, if_neg]
      rw [hlen]
      exact Nat.not_lt_zero _
    · show h.handles.entries.length ≤ _
      rw [hlen]
      exact Nat.zero_le _
  | cons oldest newer ih =>
    intro h ht ho
    rw [StableHandleHandler.dropOldest]
    split
    · next hfull =>
      have hlen : h.handles.entries.length = newer.length + 1 := ht.length_recency
      have hbound : handleCacheSize ≤ (newer.map Element.value).length := by
        rw [List.length_map]
        omega
      obtain ⟨h', hdrop, ht', ho', hlen', hkept⟩ :=
        ih (h := { h with
          handles := h.handles.erase oldest.value
          positions := h.positions.erase oldest.value }) ht.erase (ho.drop hbound)
      refine ⟨h', hdrop, ht', ho', hlen', fun d e he => ?_⟩
      have hold : (h.handles.erase oldest.value).lookup d = some e := hkept d e he
      rw [Table.lookup_erase] at hold
      split at hold
      · cases hold
      · exact hold
    · next hfits => exact ⟨_, rfl, ht, ho, not_lt.1 hfits, fun d e he => he⟩

/-- Storing a handle keeps everything in order. -/
theorem Tables.store (ht : Tables h) {log : List Digest}
    (ho : Orders handleCacheSize log (h.recency.map Element.value)) (d : Digest)
    (e : StableHandleEntry) :
    ∃ h', h.store d e = some h' ∧ Tables h' ∧
      Orders handleCacheSize (d :: log) (h'.recency.map Element.value) ∧
      h'.handles.entries.length ≤ handleCacheSize ∧
      ∀ d' e', h'.handles.lookup d' = some e' → (d' = d ∧ e' = e) ∨ h.handles.lookup d' = some e' := by
  obtain ⟨ht', hrecency⟩ := ht.touch d (h.handles.insert d e) fun d' => AList.mem_insert _
  have ho' := ho.use d
  rw [← hrecency] at ho'
  obtain ⟨h', hdrop, hafter, horder, hlen, hkept⟩ :=
    Tables.dropOldest (h := StableHandleHandler.touchLocked _ d) ht' ho'
  refine ⟨h', hdrop, hafter, horder, hlen, fun d' e' he' => ?_⟩
  have hstored := hkept d' e' he'
  rw [handles_touchLocked, Table.lookup_insert] at hstored
  split at hstored
  · next hd => exact Or.inl ⟨hd, (Option.some.inj hstored).symm⟩
  · exact Or.inr hstored

end BlackPearl.Nfs
