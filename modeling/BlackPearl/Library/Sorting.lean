import Mathlib.Data.List.Sort
import Mathlib.Data.Int.Notation

/-!
# Sorting by a comparison

Comparisons as programs write them, key after key, and what a sorting procedure promises about them.
A `Sorter` may place elements that compare equal in any order, as a procedure that is not stable
does; what it places first is still smallest, and is the same for every order of its input when the
comparison tells any two elements apart.
-/

set_option autoImplicit false

namespace BlackPearl.Library

universe u v

/-! ## Comparisons -/

section Comparisons

variable {α : Type u} {κ : Type v}

/-- What a comparison must be for sorting: no two elements precede each other, and what lies between
two elements in order is on the right side of one of them. -/
structure StrictWeak (less : α → α → Bool) : Prop where
  asymm : ∀ a b, less a b = true → less b a = false
  cotrans : ∀ a b c, less a c = true → less a b = true ∨ less b c = true

/-- A comparison that tells any two elements apart. -/
structure StrictTotal (less : α → α → Bool) : Prop extends StrictWeak less where
  trichotomy : ∀ a b, a ≠ b → less a b = true ∨ less b a = true

theorem StrictWeak.irrefl {less : α → α → Bool} (h : StrictWeak less) (a : α) :
    less a a = false := by
  cases hself : less a a with
  | false => rfl
  | true => rw [← hself, h.asymm a a hself]

theorem StrictWeak.not_less_trans {less : α → α → Bool} (h : StrictWeak less) {a b c : α}
    (hab : less b a = false) (hbc : less c b = false) : less c a = false := by
  cases hca : less c a with
  | false => rfl
  | true =>
    rcases h.cotrans c b a hca with hcb | hba
    · rw [← hcb, hbc]
    · rw [← hba, hab]

theorem StrictWeak.trans {less : α → α → Bool} (h : StrictWeak less) {a b c : α}
    (hab : less a b = true) (hbc : less b c = true) : less a c = true := by
  rcases h.cotrans a c b hab with hac | hcb
  · exact hac
  · rw [h.asymm c b hcb] at hbc
    cases hbc

/-- The comparison that tells nothing apart. -/
theorem strictWeak_never : StrictWeak fun _ _ : α => false where
  asymm _ _ _ := rfl
  cotrans _ _ _ h := by cases h

/-- A comparison seen through a function. -/
theorem StrictWeak.comap {less : κ → κ → Bool} (h : StrictWeak less) (key : α → κ) :
    StrictWeak fun a b => less (key a) (key b) where
  asymm a b := h.asymm (key a) (key b)
  cotrans a b c := h.cotrans (key a) (key b) (key c)

variable [DecidableEq κ]

/-- Compare keys, and go on where they are equal. -/
def byKey (key : α → κ) (less : κ → κ → Bool) (next : α → α → Bool) (a b : α) : Bool :=
  if key a ≠ key b then less (key a) (key b) else next a b

variable {key : α → κ} {less : κ → κ → Bool} {next : α → α → Bool}

theorem byKey_of_ne {a b : α} (h : key a ≠ key b) :
    byKey key less next a b = less (key a) (key b) := if_pos h

theorem byKey_of_eq {a b : α} (h : key a = key b) : byKey key less next a b = next a b :=
  if_neg fun hne => hne h

theorem byKey_eq_true {a b : α} :
    byKey key less next a b = true ↔
      (key a ≠ key b ∧ less (key a) (key b) = true) ∨ (key a = key b ∧ next a b = true) := by
  by_cases h : key a = key b
  · simp [byKey_of_eq h, h]
  · simp [byKey_of_ne h, h]

theorem StrictTotal.byKey (hless : StrictTotal less) (hnext : StrictWeak next) :
    StrictWeak (byKey key less next) where
  asymm a b h := by
    rcases byKey_eq_true.1 h with ⟨hne, hab⟩ | ⟨heq, hab⟩
    · rw [byKey_of_ne hne.symm]
      exact hless.asymm _ _ hab
    · rw [byKey_of_eq heq.symm]
      exact hnext.asymm _ _ hab
  cotrans a b c h := by
    rw [byKey_eq_true, byKey_eq_true]
    by_cases hab : key a = key b
    · by_cases hbc : key b = key c
      · rw [byKey_of_eq (hab.trans hbc)] at h
        exact (hnext.cotrans a b c h).imp (fun h => Or.inr ⟨hab, h⟩) (fun h => Or.inr ⟨hbc, h⟩)
      · rw [byKey_of_ne (hab ▸ hbc)] at h
        exact Or.inr (Or.inl ⟨hbc, hab ▸ h⟩)
    · by_cases hbc : key b = key c
      · rw [byKey_of_ne (hbc ▸ hab)] at h
        exact Or.inl (Or.inl ⟨hab, hbc.symm ▸ h⟩)
      · by_cases hac : key a = key c
        · rcases hless.trichotomy _ _ hab with h | h
          · exact Or.inl (Or.inl ⟨hab, h⟩)
          · exact Or.inr (Or.inl ⟨hbc, hac ▸ h⟩)
        · rw [byKey_of_ne hac] at h
          exact (hless.cotrans _ (key b) _ h).imp (fun h => Or.inl ⟨hab, h⟩)
            (fun h => Or.inl ⟨hbc, h⟩)

/-- Two elements that no comparison tells apart have the same key. -/
theorem StrictTotal.key_eq (hless : StrictTotal less) {a b : α}
    (hab : Library.byKey key less next a b = false)
    (hba : Library.byKey key less next b a = false) :
    key a = key b ∧ next a b = false ∧ next b a = false := by
  by_cases heq : key a = key b
  · rw [byKey_of_eq heq] at hab
    rw [byKey_of_eq heq.symm] at hba
    exact ⟨heq, hab, hba⟩
  · rw [byKey_of_ne heq] at hab
    rw [byKey_of_ne (Ne.symm heq)] at hba
    rcases hless.trichotomy _ _ heq with h | h
    · rw [h] at hab
      cases hab
    · rw [h] at hba
      cases hba

end Comparisons

/-! ## Numbers and texts -/

def intLess (m n : ℤ) : Bool := decide (m < n)

def intGreater (m n : ℤ) : Bool := intLess n m

theorem intLess_total : StrictTotal intLess where
  asymm a b h := by
    rw [intLess, decide_eq_true_eq] at h
    rw [intLess, decide_eq_false_iff_not]
    omega
  cotrans a b c h := by
    simp only [intLess, decide_eq_true_eq] at h ⊢
    omega
  trichotomy a b h := by
    simp only [intLess, decide_eq_true_eq]
    omega

theorem StrictTotal.flip {α : Type u} {less : α → α → Bool} (h : StrictTotal less) :
    StrictTotal fun a b => less b a where
  asymm a b hab := h.asymm b a hab
  cotrans a b c hac := (h.cotrans c b a hac).symm
  trichotomy a b hab := h.trichotomy b a (Ne.symm hab)

theorem intGreater_total : StrictTotal intGreater := intLess_total.flip

/-- What holds comes before what does not. -/
def trueFirst (a b : Bool) : Bool := a && !b

theorem trueFirst_total : StrictTotal trueFirst where
  asymm a b h := by
    cases a <;> cases b <;> trivial
  cotrans a b c h := by
    cases a <;> cases b <;> cases c <;> simp [trueFirst] at h ⊢
  trichotomy a b h := by
    cases a <;> cases b <;> simp [trueFirst] at h ⊢

theorem byKey_trueFirst {α : Type u} {key : α → Bool} {next : α → α → Bool} (a b : α) :
    byKey key trueFirst next a b = if key a ≠ key b then key a else next a b := by
  unfold byKey
  split
  · rename_i hne
    cases hb : key b with
    | false => simp [trueFirst]
    | true => simp [trueFirst, Bool.eq_false_iff.2 fun h => hne (h.trans hb.symm)]
  · rfl

/-- Lists in the order of their first difference. -/
def lexLess {α : Type u} [DecidableEq α] (less : α → α → Bool) : List α → List α → Bool
  | _, [] => false
  | [], _ :: _ => true
  | a :: l, b :: l' => if a = b then lexLess less l l' else less a b

theorem lexLess_cons_eq_true {α : Type u} [DecidableEq α] {less : α → α → Bool} {a b : α}
    {l l' : List α} :
    lexLess less (a :: l) (b :: l') = true ↔
      (a ≠ b ∧ less a b = true) ∨ (a = b ∧ lexLess less l l' = true) := by
  by_cases h : a = b
  · simp [lexLess, h]
  · simp [lexLess, h]

theorem StrictTotal.lexLess {α : Type u} [DecidableEq α] {less : α → α → Bool}
    (h : StrictTotal less) : StrictTotal (lexLess less) where
  asymm l := by
    induction l with
    | nil =>
      intro l' hl
      cases l' <;> rfl
    | cons a l ih =>
      intro l' hl
      cases l' with
      | nil => cases hl
      | cons b l' =>
        rw [Bool.eq_false_iff, ne_eq, lexLess_cons_eq_true]
        rcases lexLess_cons_eq_true.1 hl with ⟨hne, hab⟩ | ⟨rfl, hrest⟩
        · rintro (⟨-, hba⟩ | ⟨heq, -⟩)
          · rw [h.asymm a b hab] at hba
            cases hba
          · exact hne heq.symm
        · rintro (⟨hne, -⟩ | ⟨-, hback⟩)
          · exact hne rfl
          · rw [ih l' hrest] at hback
            cases hback
  cotrans l := by
    induction l with
    | nil =>
      intro l' l'' hl
      cases l'' with
      | nil => cases hl
      | cons c l'' =>
        cases l' with
        | nil => exact Or.inr rfl
        | cons b l' => exact Or.inl rfl
    | cons a l ih =>
      intro l' l'' hl
      cases l'' with
      | nil => cases hl
      | cons c l'' =>
        cases l' with
        | nil => exact Or.inr rfl
        | cons b l' =>
          rw [lexLess_cons_eq_true, lexLess_cons_eq_true]
          rcases lexLess_cons_eq_true.1 hl with ⟨hne, hac⟩ | ⟨rfl, hrest⟩
          · by_cases hab : a = b
            · exact Or.inr (Or.inl ⟨hab ▸ hne, hab ▸ hac⟩)
            · by_cases hbc : b = c
              · exact Or.inl (Or.inl ⟨hab, hbc.symm ▸ hac⟩)
              · exact (h.cotrans a b c hac).imp (fun h => Or.inl ⟨hab, h⟩)
                  (fun h => Or.inl ⟨hbc, h⟩)
          · by_cases hab : a = b
            · exact (ih l' l'' hrest).imp (fun h => Or.inr ⟨hab, h⟩) (fun h => Or.inr ⟨hab.symm, h⟩)
            · exact (h.trichotomy a b hab).imp (fun h => Or.inl ⟨hab, h⟩)
                (fun h => Or.inl ⟨Ne.symm hab, h⟩)
  trichotomy l := by
    induction l with
    | nil =>
      intro l' hne
      cases l' with
      | nil => exact absurd rfl hne
      | cons b l' => exact Or.inl rfl
    | cons a l ih =>
      intro l' hne
      cases l' with
      | nil => exact Or.inr rfl
      | cons b l' =>
        rw [lexLess_cons_eq_true, lexLess_cons_eq_true]
        by_cases hab : a = b
        · subst hab
          have hrest : l ≠ l' := fun heq => hne (by rw [heq])
          exact (ih l' hrest).imp (fun h => Or.inr ⟨rfl, h⟩) (fun h => Or.inr ⟨rfl, h⟩)
        · exact (h.trichotomy a b hab).imp (fun h => Or.inl ⟨hab, h⟩)
            (fun h => Or.inl ⟨Ne.symm hab, h⟩)

def charLess (c d : Char) : Bool := Nat.blt c.toNat d.toNat

theorem charLess_total : StrictTotal charLess where
  asymm c d h := by
    rw [charLess, Nat.blt_eq] at h
    rw [charLess, Bool.eq_false_iff, ne_eq, Nat.blt_eq]
    omega
  cotrans c d e h := by
    simp only [charLess, Nat.blt_eq] at h ⊢
    omega
  trichotomy c d h := by
    simp only [charLess, Nat.blt_eq]
    have hne : c.toNat ≠ d.toNat := fun heq => h (Char.toNat_inj.1 heq)
    omega

/-- Texts in the order of their code points, which is that of their UTF-8 bytes. -/
def textLess (s t : String) : Bool := lexLess charLess s.toList t.toList

theorem textLess_total : StrictTotal textLess where
  asymm _ _ := charLess_total.lexLess.asymm _ _
  cotrans _ _ _ := charLess_total.lexLess.cotrans _ _ _
  trichotomy _ _ h :=
    charLess_total.lexLess.trichotomy _ _ fun heq => h (String.toList_inj.1 heq)

/-! ## Sorting -/

/-- A sorting procedure that need not be stable. -/
structure Sorter (α : Type u) where
  sort : (α → α → Bool) → List α → List α
  perm : ∀ less l, (sort less l).Perm l
  sorted : ∀ less l, StrictWeak less → (sort less l).Pairwise fun a b => less b a = false

/-- Sorting that keeps the order of elements that compare equal. -/
def stableSort {α : Type u} (less : α → α → Bool) (l : List α) : List α :=
  l.insertionSort fun a b => less b a = false

theorem stableSort_perm {α : Type u} (less : α → α → Bool) (l : List α) :
    (stableSort less l).Perm l :=
  List.perm_insertionSort _ l

theorem stableSort_sorted {α : Type u} {less : α → α → Bool} (h : StrictWeak less) (l : List α) :
    (stableSort less l).Pairwise fun a b => less b a = false := by
  have htotal : Std.Total fun a b => less b a = false := by
    refine ⟨fun a b => ?_⟩
    cases hba : less b a with
    | false => exact Or.inl rfl
    | true => exact Or.inr (h.asymm b a hba)
  have htrans : IsTrans α fun a b => less b a = false :=
    ⟨fun a b c hab hbc => h.not_less_trans hab hbc⟩
  exact List.pairwise_insertionSort _ l

/-- Stable sorting is one such procedure. -/
def Sorter.stable (α : Type u) : Sorter α where
  sort := stableSort
  perm := stableSort_perm
  sorted _ l h := stableSort_sorted h l

/-! ## Ties -/

section Ties

variable {α : Type u}

/-- Elements that the comparison does not tell apart. -/
def tied (less : α → α → Bool) (a b : α) : Bool := !less a b && !less b a

variable {less : α → α → Bool}

theorem tied_iff {a b : α} : tied less a b = true ↔ less a b = false ∧ less b a = false := by
  simp [tied]

theorem StrictWeak.tied_self (h : StrictWeak less) (a : α) : tied less a a = true :=
  tied_iff.2 ⟨h.irrefl a, h.irrefl a⟩

/-- Stable sorting keeps tied elements in their order. -/
theorem stableSort_filter_tied (h : StrictWeak less) (a : α) (l : List α) :
    (stableSort less l).filter (tied less a) = l.filter (tied less a) := by
  have hsorted : (l.filter (tied less a)).Pairwise fun b c => less c b = false := by
    refine List.Pairwise.imp_of_mem ?_ (List.pairwise_of_forall fun _ _ => trivial)
    intro b c hb hc _
    have hab := tied_iff.1 (List.mem_filter.1 hb).2
    have hac := tied_iff.1 (List.mem_filter.1 hc).2
    exact h.not_less_trans hab.1 hac.2
  have htotal : Std.Total fun b c => less c b = false := by
    refine ⟨fun b c => ?_⟩
    cases hcb : less c b with
    | false => exact Or.inl rfl
    | true => exact Or.inr (h.asymm c b hcb)
  have hsub : (l.filter (tied less a)).Sublist (stableSort less l) :=
    List.sublist_insertionSort hsorted List.filter_sublist
  have hinner := hsub.filter (tied less a)
  rw [List.filter_filter, List.filter_congr fun b _ => Bool.and_self _] at hinner
  have hlength := ((stableSort_perm less l).filter (tied less a)).length_eq
  exact (hinner.eq_of_length hlength.symm).symm

/-- Sorted lists of the same elements that have their tied elements in the same order are equal. -/
theorem StrictWeak.eq_of_sorted (h : StrictWeak less) {l l' : List α} (hperm : l.Perm l')
    (hl : l.Pairwise fun a b => less b a = false) (hl' : l'.Pairwise fun a b => less b a = false)
    (hties : ∀ a, l.filter (tied less a) = l'.filter (tied less a)) : l = l' := by
  induction l generalizing l' with
  | nil => exact hperm.nil_eq
  | cons a l ih =>
    cases l' with
    | nil => exact absurd hperm.length_eq (by simp)
    | cons b l' =>
      obtain ⟨ha, htail⟩ := List.pairwise_cons.1 hl
      obtain ⟨hb, htail'⟩ := List.pairwise_cons.1 hl'
      -- both heads are smallest, so they are tied
      have hba : less b a = false := by
        rcases List.mem_cons.1 (hperm.mem_iff.2 List.mem_cons_self) with rfl | hmem
        · exact h.irrefl b
        · exact ha b hmem
      have hab : less a b = false := by
        rcases List.mem_cons.1 (hperm.mem_iff.1 List.mem_cons_self) with rfl | hmem
        · exact h.irrefl a
        · exact hb a hmem
      have heads := hties a
      rw [List.filter_cons_of_pos (h.tied_self a),
        List.filter_cons_of_pos (tied_iff.2 ⟨hab, hba⟩)] at heads
      obtain rfl : a = b := (List.cons.inj heads).1
      rw [ih hperm.cons_inv htail htail' fun c => ?_]
      have htails := hties c
      cases hc : tied less c a with
      | true =>
        rw [List.filter_cons_of_pos hc, List.filter_cons_of_pos hc] at htails
        exact (List.cons.inj htails).2
      | false =>
        rwa [List.filter_cons_of_neg (by simp [hc]), List.filter_cons_of_neg (by simp [hc])]
          at htails

/-- What stable sorting returns depends only on the elements and on the order of the tied ones. -/
theorem stableSort_congr (h : StrictWeak less) {l l' : List α} (hperm : l.Perm l')
    (hties : ∀ a, l.filter (tied less a) = l'.filter (tied less a)) :
    stableSort less l = stableSort less l' := by
  refine h.eq_of_sorted ?_ (stableSort_sorted h l) (stableSort_sorted h l') fun a => ?_
  · exact (stableSort_perm less l).trans (hperm.trans (stableSort_perm less l').symm)
  · rw [stableSort_filter_tied h, stableSort_filter_tied h, hties a]

/-- Parts of which at most one has elements may be put together in any order. -/
theorem flatMap_eq_of_perm {β : Type v} {f : β → List α} {parts parts' : List β}
    (hperm : parts.Perm parts') (hlone : parts.Pairwise fun b c => f b = [] ∨ f c = []) :
    parts.flatMap f = parts'.flatMap f := by
  induction hperm with
  | nil => rfl
  | cons b _ ih => rw [List.flatMap_cons, List.flatMap_cons, ih (List.pairwise_cons.1 hlone).2]
  | swap b c rest =>
    rw [List.flatMap_cons, List.flatMap_cons, List.flatMap_cons, List.flatMap_cons]
    rcases (List.pairwise_cons.1 hlone).1 b List.mem_cons_self with hempty | hempty
    · rw [hempty, List.nil_append, List.nil_append]
    · rw [hempty, List.nil_append, List.nil_append]
  | trans hfirst _ ih ih' => exact (ih hlone).trans (ih' (hfirst.pairwise hlone fun h => h.symm))

end Ties

section Sorters

variable {α : Type u} {less : α → α → Bool}

theorem Sorter.mem_sort (s : Sorter α) {l : List α} {a : α} : a ∈ s.sort less l ↔ a ∈ l :=
  (s.perm less l).mem_iff

/-- What comes first is smallest. -/
theorem Sorter.head_least (s : Sorter α) (hless : StrictWeak less) {l : List α} {a : α}
    {rest : List α} (h : s.sort less l = a :: rest) : a ∈ l ∧ ∀ b ∈ l, less b a = false := by
  refine ⟨s.mem_sort.1 (h ▸ List.mem_cons_self), fun b hb => ?_⟩
  have hsorted := s.sorted less l hless
  have hmem : b ∈ s.sort less l := s.mem_sort.2 hb
  rw [h] at hsorted hmem
  rcases List.mem_cons.1 hmem with rfl | hmem
  · exact hless.irrefl b
  · exact (List.pairwise_cons.1 hsorted).1 b hmem

theorem Sorter.sort_eq_nil (s : Sorter α) {l : List α} : s.sort less l = [] ↔ l = [] := by
  rw [← List.length_eq_zero_iff, (s.perm less l).length_eq, List.length_eq_zero_iff]

end Sorters

end BlackPearl.Library
