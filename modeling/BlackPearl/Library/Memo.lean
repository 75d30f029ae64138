import BlackPearl.Library.Table

/-!
# Remembered results

Two ways in which a concurrent program asks less often than it is asked. An entry of a table can be used
until it expires (`load`, `store`, and `Kept` for what is known of every entry). Callers that need a
result for a key while it is being asked for share one call (`SharedCalls`): every call that was ever
made is kept, with its result once it has one, so that a waiting caller refers to its call by number.
`Coherent` says that the calls without a result are those in the table, at most one for a key.
-/

set_option autoImplicit false

namespace BlackPearl.Library

universe u v w

/-! ## Entries that expire -/

/-- A value with the time from which it is not used any more. -/
structure Expiring (V : Type u) where
  value : V
  expires : ℤ
  deriving DecidableEq, Repr

namespace Expiring

variable {K : Type u} {V : Type v} [DecidableEq K]

/-- The value for a key, unless it has expired. -/
def load (now : ℤ) (entries : Table K (Expiring V)) (key : K) : Option V :=
  match entries.lookup key with
  | some entry => if now < entry.expires then some entry.value else none
  | none => none

/-- A value that is used for a time from now on. -/
def store (now ttl : ℤ) (entries : Table K (Expiring V)) (key : K) (value : V) : Table K (Expiring V) :=
  entries.insert key ⟨value, now + ttl⟩

/-- Every entry has been stored, at a time of which `P` holds with its key and value. -/
def Kept (P : K → V → ℤ → Prop) (now ttl : ℤ) (entries : Table K (Expiring V)) : Prop :=
  ∀ key entry, entries.lookup key = some entry →
    ∃ storedAt ≤ now, entry.expires = storedAt + ttl ∧ P key entry.value storedAt

variable {P Q : K → V → ℤ → Prop} {now ttl : ℤ} {entries : Table K (Expiring V)}

theorem kept_empty : Kept P now ttl (∅ : Table K (Expiring V)) := by
  intro key entry h
  rw [AList.lookup_empty] at h
  cases h

/-- Time passes, and more is known of what was stored. -/
theorem Kept.mono {now' : ℤ} (h : Kept P now ttl entries) (hnow : now ≤ now')
    (hPQ : ∀ key value storedAt, P key value storedAt → Q key value storedAt) :
    Kept Q now' ttl entries := by
  intro key entry hentry
  obtain ⟨storedAt, hle, hexpires, hP⟩ := h key entry hentry
  exact ⟨storedAt, hle.trans hnow, hexpires, hPQ _ _ _ hP⟩

theorem Kept.store {key : K} {value : V} (h : Kept P now ttl entries) (hP : P key value now) :
    Kept P now ttl (store now ttl entries key value) := by
  intro key' entry hentry
  rw [Expiring.store, Table.lookup_insert] at hentry
  split at hentry
  · next hkey =>
    cases hentry
    subst hkey
    exact ⟨now, le_refl now, rfl, hP⟩
  · exact h key' entry hentry

theorem Kept.erase {key : K} (h : Kept P now ttl entries) : Kept P now ttl (entries.erase key) := by
  intro key' entry hentry
  rw [Table.lookup_erase] at hentry
  split at hentry
  · cases hentry
  · exact h key' entry hentry

/-- What is loaded has been stored within the time that it is used for. -/
theorem Kept.load {key : K} {value : V} (h : Kept P now ttl entries)
    (hload : load now entries key = some value) :
    ∃ storedAt ≤ now, now < storedAt + ttl ∧ P key value storedAt := by
  unfold Expiring.load at hload
  split at hload
  · next entry hentry =>
    split at hload
    · next hfresh =>
      cases hload
      obtain ⟨storedAt, hle, hexpires, hP⟩ := h key entry hentry
      exact ⟨storedAt, hle, hexpires ▸ hfresh, hP⟩
    · cases hload
  · cases hload

end Expiring

/-! ## Calls that are shared -/

/-- A call for a key, with what it was made with. -/
structure SharedCall (K : Type u) (I : Type v) (R : Type w) where
  key : K
  input : I
  result : Option R
  deriving DecidableEq, Repr

/-- The calls in the order in which they were made, and the numbers of those in flight. -/
structure SharedCalls (K : Type u) (I : Type v) (R : Type w) [DecidableEq K] where
  calls : List (SharedCall K I R)
  inflight : Table K ℕ

namespace SharedCalls

variable {K : Type u} {I : Type v} {R : Type w} [DecidableEq K]

def empty : SharedCalls K I R := ⟨[], ∅⟩

/-- The call that is in flight for a key, or else a new one. -/
def join (s : SharedCalls K I R) (key : K) (input : I) : SharedCalls K I R × ℕ :=
  match s.inflight.lookup key with
  | some number => (s, number)
  | none => (⟨s.calls ++ [⟨key, input, none⟩], s.inflight.insert key s.calls.length⟩, s.calls.length)

/-- A call that has no result yet ends with one. -/
def finish (s : SharedCalls K I R) (number : ℕ) (result : R) : Option (SharedCalls K I R) :=
  match s.calls[number]? with
  | some ⟨key, input, none⟩ =>
      some ⟨s.calls.set number ⟨key, input, some result⟩, s.inflight.erase key⟩
  | _ => none

/-- The result of a call that has ended. -/
def result (s : SharedCalls K I R) (number : ℕ) : Option R := s.calls[number]?.bind SharedCall.result

/-- A call that is still running. -/
def Running (s : SharedCalls K I R) (number : ℕ) : Prop :=
  ∃ key input, s.calls[number]? = some ⟨key, input, none⟩

/-- A call for this key with this input, running or ended. -/
def Made (s : SharedCalls K I R) (number : ℕ) (key : K) (input : I) : Prop :=
  ∃ result, s.calls[number]? = some ⟨key, input, result⟩

/-- The calls in flight are those that are running. -/
def Coherent (s : SharedCalls K I R) : Prop :=
  ∀ key number, s.inflight.lookup key = some number ↔
    ∃ input, s.calls[number]? = some ⟨key, input, none⟩

/-- What is known of the keys and inputs of all calls. -/
def All (P : K → I → Prop) (s : SharedCalls K I R) : Prop :=
  ∀ number key input, s.Made number key input → P key input

/-- The calls of `t` are those of `s`, of which more may have ended, and further ones. -/
def Extends (s t : SharedCalls K I R) : Prop :=
  ∀ (number : ℕ) (key : K) (input : I) (result : Option R), s.calls[number]? = some ⟨key, input, result⟩ →
    ∃ result', t.calls[number]? = some ⟨key, input, result'⟩ ∧ ∀ r, result = some r → result' = some r

variable {s t u : SharedCalls K I R}

theorem coherent_empty : (empty : SharedCalls K I R).Coherent := by
  intro key number
  simp [empty]

/-- At most one call for a key is running. -/
theorem Coherent.single {key : K} {i j : ℕ} {input input' : I} (h : s.Coherent)
    (hi : s.calls[i]? = some ⟨key, input, none⟩) (hj : s.calls[j]? = some ⟨key, input', none⟩) : i = j := by
  have hlookup := (h key i).2 ⟨input, hi⟩
  rw [(h key j).2 ⟨input', hj⟩] at hlookup
  exact (Option.some.inj hlookup).symm

/-- The call that a caller joins is running and for its key. -/
theorem join_running (key : K) (input : I) (h : s.Coherent) :
    ∃ input', (s.join key input).1.calls[(s.join key input).2]? = some ⟨key, input', none⟩ := by
  unfold join
  split
  · next number hlookup => exact (h key number).1 hlookup
  · exact ⟨input, by simp⟩

theorem Coherent.join {key : K} {input : I} (h : s.Coherent) : (s.join key input).1.Coherent := by
  unfold SharedCalls.join
  split
  · exact h
  · next hnone =>
    intro key' number
    simp only [Table.lookup_insert]
    by_cases hlast : number = s.calls.length
    · -- the new call is the last one, and no other key has its number
      subst hlast
      split
      · next hkey => simp [hkey]
      · next hkey =>
        have hbeyond : ¬ ∃ input, s.calls[s.calls.length]? = some ⟨key', input, none⟩ := by simp
        have hlookup := mt (h key' s.calls.length).1 hbeyond
        simp [hlookup, Ne.symm hkey]
    · have hold : (s.calls ++ [(⟨key, input, none⟩ : SharedCall K I R)])[number]? = s.calls[number]? := by
        rcases Nat.lt_or_ge number s.calls.length with hlt | hge
        · rw [List.getElem?_append_left hlt]
        · rw [List.getElem?_eq_none (by simp; omega), List.getElem?_eq_none hge]
      rw [hold]
      split
      · next hkey =>
        subst hkey
        constructor
        · intro hnumber
          exact absurd (Option.some.inj hnumber).symm hlast
        · rintro ⟨input', hcall⟩
          rw [(h key' number).2 ⟨input', hcall⟩] at hnone
          cases hnone
      · exact h key' number

theorem finish_eq_some {number : ℕ} {result : R} :
    s.finish number result = some t ↔ ∃ key input, s.calls[number]? = some ⟨key, input, none⟩ ∧
      t = ⟨s.calls.set number ⟨key, input, some result⟩, s.inflight.erase key⟩ := by
  unfold finish
  constructor
  · intro h
    split at h
    · next key input hcall =>
      cases h
      exact ⟨key, input, hcall, rfl⟩
    · cases h
  · rintro ⟨key, input, hcall, rfl⟩
    rw [hcall]

theorem Coherent.finish {number : ℕ} {result : R} (h : s.Coherent)
    (hfinish : s.finish number result = some t) : t.Coherent := by
  obtain ⟨key, input, hcall, rfl⟩ := finish_eq_some.1 hfinish
  have hlt : number < s.calls.length := (List.getElem?_eq_some_iff.1 hcall).1
  intro key' number'
  simp only [Table.lookup_erase]
  by_cases hnumber : number' = number
  · subst hnumber
    simp only [List.getElem?_set_self hlt, Option.some.injEq, SharedCall.mk.injEq, reduceCtorEq, and_false,
      exists_false, iff_false]
    split
    · simp
    · next hkey =>
      intro hlookup
      obtain ⟨input', hcall'⟩ := (h key' number').1 hlookup
      rw [hcall] at hcall'
      cases hcall'
      exact hkey rfl
  · rw [List.getElem?_set_ne (Ne.symm hnumber)]
    split
    · next hkey =>
      subst hkey
      simp only [reduceCtorEq, false_iff]
      rintro ⟨input', hcall'⟩
      exact hnumber (h.single hcall' hcall)
    · exact h key' number'

/-! ### Calls persist -/

theorem Extends.refl (s : SharedCalls K I R) : s.Extends s := fun _ _ _ result h => ⟨result, h, fun _ => id⟩

theorem Extends.trans (hst : s.Extends t) (htu : t.Extends u) : s.Extends u := by
  intro number key input result h
  obtain ⟨result', ht, hkeep⟩ := hst number key input result h
  obtain ⟨result'', hu, hkeep'⟩ := htu number key input result' ht
  exact ⟨result'', hu, fun r hr => hkeep' r (hkeep r hr)⟩

theorem extends_join (s : SharedCalls K I R) (key : K) (input : I) : s.Extends (s.join key input).1 := by
  unfold join
  split
  · exact .refl s
  · intro number key' input' result h
    exact ⟨result, by rw [List.getElem?_append_left (List.getElem?_eq_some_iff.1 h).1, h], fun _ => id⟩

theorem extends_finish {number : ℕ} {result : R} (h : s.finish number result = some t) : s.Extends t := by
  obtain ⟨key, input, hcall, rfl⟩ := finish_eq_some.1 h
  intro number' key' input' result' h'
  by_cases hnumber : number' = number
  · subst hnumber
    rw [hcall] at h'
    cases h'
    exact ⟨some result, by rw [List.getElem?_set_self (List.getElem?_eq_some_iff.1 hcall).1],
      fun r hr => by cases hr⟩
  · exact ⟨result', by rw [List.getElem?_set_ne (Ne.symm hnumber), h'], fun _ => id⟩

theorem Extends.made {number : ℕ} {key : K} {input : I} (h : s.Extends t) (hmade : s.Made number key input) :
    t.Made number key input := by
  obtain ⟨result, hcall⟩ := hmade
  obtain ⟨result', hcall', -⟩ := h number key input result hcall
  exact ⟨result', hcall'⟩

theorem Extends.result {number : ℕ} {r : R} (h : s.Extends t) (hresult : s.result number = some r) :
    t.result number = some r := by
  obtain ⟨⟨key, input, result⟩, hcall, hr⟩ := Option.bind_eq_some_iff.1 hresult
  obtain ⟨result', hcall', hkeep⟩ := h number key input result hcall
  simp only [SharedCalls.result, hcall', Option.bind_some]
  exact hkeep r hr

/-- A call that is made is running or has a result. -/
theorem Made.running_or_result {number : ℕ} {key : K} {input : I} (h : s.Made number key input) :
    s.Running number ∨ ∃ r, s.result number = some r := by
  obtain ⟨result, hcall⟩ := h
  cases result with
  | none => exact .inl ⟨key, input, hcall⟩
  | some r => exact .inr ⟨r, by simp [SharedCalls.result, hcall]⟩

/-- A running call can end, with any result. -/
theorem Running.finish {number : ℕ} (h : s.Running number) (result : R) :
    ∃ t, s.finish number result = some t ∧ t.result number = some result := by
  obtain ⟨key, input, hcall⟩ := h
  refine ⟨_, finish_eq_some.2 ⟨key, input, hcall, rfl⟩, ?_⟩
  simp [SharedCalls.result, List.getElem?_set_self (List.getElem?_eq_some_iff.1 hcall).1]

/-- The call that a caller joins is for its key, and its input is as good as the caller's own. -/
theorem All.join {P : K → I → Prop} (key : K) (input : I) (h : s.All P) (hP : P key input) :
    (s.join key input).1.All P := by
  unfold SharedCalls.join
  split
  · exact h
  · rintro number key' input' ⟨result, hcall⟩
    rcases Nat.lt_or_ge number s.calls.length with hlt | hge
    · rw [List.getElem?_append_left hlt] at hcall
      exact h number key' input' ⟨result, hcall⟩
    · rw [List.getElem?_append_right hge] at hcall
      cases List.mem_singleton.1 (List.mem_of_getElem? hcall)
      exact hP

theorem All.finish {P : K → I → Prop} {number : ℕ} {result : R} (h : s.All P)
    (hfinish : s.finish number result = some t) : t.All P := by
  obtain ⟨key, input, hcall, rfl⟩ := finish_eq_some.1 hfinish
  rintro number' key' input' ⟨result', hcall'⟩
  by_cases hnumber : number' = number
  · subst hnumber
    rw [List.getElem?_set_self (List.getElem?_eq_some_iff.1 hcall).1] at hcall'
    cases hcall'
    exact h number' key input ⟨none, hcall⟩
  · rw [List.getElem?_set_ne (Ne.symm hnumber)] at hcall'
    exact h number' key' input' ⟨result', hcall'⟩

end SharedCalls

end BlackPearl.Library
