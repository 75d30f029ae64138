import Mathlib.Data.List.Infix

/-!
# Texts as words

The words of a text are its longest parts without a separator. A search for whole words is a search
for a text in which each word has a separator before and after it: `frame_infix_iff` and
`frame_isPrefix_iff` say that it finds the same words in the same order.

Counting occurrences that do not overlap is a different matter. Two words in a row share the
separator between them, so `countText_frame` counts only every second one of equal words in a row.
-/

set_option autoImplicit false

namespace BlackPearl.Library

universe u

/-! ## Fields -/

section Fields

variable {α : Type u} (isSep : α → Bool)

/-- The longest parts without separators, in their order; none of them is empty. -/
def fields (l : List α) : List (List α) := (l.splitOnP isSep).filter fun w => !w.isEmpty

@[simp] theorem fields_nil : fields isSep [] = [] := by
  simp [fields, List.splitOnP_nil]

variable {isSep}

theorem fields_append_cons (l l' : List α) {s : α} (hs : isSep s = true) :
    fields isSep (l ++ s :: l') = fields isSep l ++ fields isSep l' := by
  rw [fields, List.splitOnP_append_cons l l' hs, List.filter_append]
  rfl

theorem fields_eq_singleton {w : List α} (hne : w ≠ []) (hw : ∀ x ∈ w, isSep x = false) :
    fields isSep w = [w] := by
  rw [fields, List.splitOnP_eq_singleton hw]
  cases w with
  | nil => exact absurd rfl hne
  | cons x w => rfl

theorem splitOnP_free {l w : List α} (h : w ∈ l.splitOnP isSep) : ∀ x ∈ w, isSep x = false := by
  induction l generalizing w with
  | nil =>
    rw [List.splitOnP_nil, List.mem_singleton] at h
    subst h
    exact fun x hx => absurd hx List.not_mem_nil
  | cons x l ih =>
    rw [List.splitOnP_cons_eq_if_modifyHead] at h
    split at h
    · rcases List.mem_cons.1 h with rfl | h
      · exact fun y hy => absurd hy List.not_mem_nil
      · exact ih h
    · rename_i hx
      cases hsplit : l.splitOnP isSep with
      | nil => exact absurd hsplit (List.splitOnP_ne_nil isSep l)
      | cons first rest =>
        rw [hsplit] at h ih
        rw [List.modifyHead_cons] at h
        rcases List.mem_cons.1 h with rfl | h
        · intro y hy
          rcases List.mem_cons.1 hy with rfl | hy
          · exact Bool.eq_false_iff.2 hx
          · exact ih List.mem_cons_self y hy
        · exact ih (List.mem_cons_of_mem _ h)

/-- A field is not empty and has no separator. -/
theorem mem_fields {l w : List α} (h : w ∈ fields isSep l) :
    w ≠ [] ∧ ∀ x ∈ w, isSep x = false := by
  obtain ⟨hsplit, hempty⟩ := List.mem_filter.1 h
  refine ⟨?_, splitOnP_free hsplit⟩
  rintro rfl
  cases hempty

end Fields

/-! ## Frames -/

section Frames

variable {α : Type u}

/-- Words that `sep` can separate. -/
def Separable (sep : α) (ws : List (List α)) : Prop := ∀ w ∈ ws, w ≠ [] ∧ sep ∉ w

theorem Separable.tail {sep : α} {w : List α} {ws : List (List α)}
    (h : Separable sep (w :: ws)) : Separable sep ws :=
  fun v hv => h v (List.mem_cons_of_mem w hv)

theorem separable_fields {isSep : α → Bool} {sep : α} (hsep : isSep sep = true) (l : List α) :
    Separable sep (fields isSep l) := by
  intro w hw
  obtain ⟨hne, hfree⟩ := mem_fields hw
  refine ⟨hne, fun hmem => ?_⟩
  rw [hfree sep hmem] at hsep
  cases hsep

/-- Words with a separator between them. -/
def joinWords (sep : α) (ws : List (List α)) : List α := [sep].intercalate ws

/-- The same with a separator before and after. -/
def frame (sep : α) (ws : List (List α)) : List α := sep :: (joinWords sep ws ++ [sep])

/-- Words with a separator after each. -/
def ended (sep : α) (ws : List (List α)) : List α := ws.flatMap (· ++ [sep])

@[simp] theorem ended_nil (sep : α) : ended sep [] = [] := rfl

@[simp] theorem ended_cons (sep : α) (w : List α) (ws : List (List α)) :
    ended sep (w :: ws) = w ++ sep :: ended sep ws := by
  simp [ended]

theorem ended_append (sep : α) (ws vs : List (List α)) :
    ended sep (ws ++ vs) = ended sep ws ++ ended sep vs :=
  List.flatMap_append

theorem joinWords_append_sep (sep : α) {ws : List (List α)} (h : ws ≠ []) :
    joinWords sep ws ++ [sep] = ended sep ws := by
  induction ws with
  | nil => exact absurd rfl h
  | cons w ws ih =>
    cases ws with
    | nil => simp [joinWords, List.intercalate_singleton]
    | cons v ws =>
      have hrest := ih (by simp)
      rw [joinWords] at hrest ⊢
      rw [List.intercalate_cons_cons, List.append_assoc, List.append_assoc, hrest,
        List.singleton_append, ended_cons sep w]

/-- Joined words come apart into the same words. -/
theorem joinWords_eq_nil {sep : α} {ws : List (List α)} (h : Separable sep ws) :
    joinWords sep ws = [] ↔ ws = [] := by
  constructor
  · intro hjoin
    cases ws with
    | nil => rfl
    | cons w ws =>
      have hended := joinWords_append_sep sep (List.cons_ne_nil w ws)
      rw [hjoin, ended_cons] at hended
      cases w with
      | nil => exact absurd rfl (h _ List.mem_cons_self).1
      | cons x w =>
        have hlength := congrArg List.length hended
        simp at hlength
  · rintro rfl
    rfl

theorem frame_eq {sep : α} {ws : List (List α)} (h : ws ≠ []) : frame sep ws = sep :: ended sep ws := by
  rw [frame, joinWords_append_sep sep h]

/-- A word ends at the first separator. -/
theorem append_cons_inj {sep : α} {w v l l' : List α} (hw : sep ∉ w) (hv : sep ∉ v)
    (h : w ++ sep :: l = v ++ sep :: l') : w = v ∧ l = l' := by
  induction w generalizing v with
  | nil =>
    cases v with
    | nil => exact ⟨rfl, (List.cons.inj h).2⟩
    | cons x v =>
      have hx : sep = x := (List.cons.inj h).1
      exact absurd (hx ▸ List.mem_cons_self) hv
  | cons y w ih =>
    cases v with
    | nil =>
      have hy : y = sep := (List.cons.inj h).1
      exact absurd (hy ▸ List.mem_cons_self) hw
    | cons x v =>
      obtain ⟨rfl, hrest⟩ := List.cons.inj h
      obtain ⟨rfl, rfl⟩ := ih (fun hm => hw (List.mem_cons_of_mem _ hm))
        (fun hm => hv (List.mem_cons_of_mem _ hm)) hrest
      exact ⟨rfl, rfl⟩

/-- Where a text of words goes on after other words, these are its first ones. -/
theorem isPrefix_of_ended {sep : α} {ws vs : List (List α)} (hws : Separable sep ws)
    (hvs : Separable sep vs) (h : ended sep ws <+: ended sep vs) : ws <+: vs := by
  induction ws generalizing vs with
  | nil => exact List.nil_prefix
  | cons w ws ih =>
    obtain ⟨rest, hrest⟩ := h
    rw [ended_cons, List.append_assoc, List.cons_append] at hrest
    cases vs with
    | nil =>
      rw [ended_nil] at hrest
      have hlength := congrArg List.length hrest
      simp at hlength
    | cons v vs =>
      rw [ended_cons] at hrest
      obtain ⟨rfl, htail⟩ := append_cons_inj (hws w List.mem_cons_self).2
        (hvs v List.mem_cons_self).2 hrest
      rw [List.prefix_cons_inj]
      exact ih hws.tail hvs.tail ⟨rest, htail⟩

theorem ended_isPrefix {sep : α} {ws vs : List (List α)} (h : ws <+: vs) :
    ended sep ws <+: ended sep vs := by
  obtain ⟨rest, rfl⟩ := h
  exact ⟨ended sep rest, (ended_append sep ws rest).symm⟩

theorem frame_not_infix_nil {sep : α} {ws : List (List α)} (hws : Separable sep ws) (hne : ws ≠ []) :
    ¬ frame sep ws <:+: frame sep [] := by
  intro h
  cases ws with
  | nil => exact hne rfl
  | cons w ws =>
    have hword := List.length_pos_iff.2 (hws w List.mem_cons_self).1
    have hlength := h.length_le
    rw [frame_eq hne, ended_cons, frame, joinWords, List.intercalate_nil] at hlength
    simp only [List.length_cons, List.length_append, List.length_nil] at hlength
    omega

theorem frame_isPrefix_iff {sep : α} {ws vs : List (List α)} (hws : Separable sep ws)
    (hvs : Separable sep vs) (hne : ws ≠ []) : frame sep ws <+: frame sep vs ↔ ws <+: vs := by
  by_cases hempty : vs = []
  · subst hempty
    exact iff_of_false (fun h => frame_not_infix_nil hws hne h.isInfix)
      (fun h => hne (List.prefix_nil.1 h))
  · rw [frame_eq hne, frame_eq hempty, List.prefix_cons_inj]
    exact ⟨isPrefix_of_ended hws hvs, ended_isPrefix⟩

/-- A separator in a text of words stands after one of them. -/
theorem ended_split {sep : α} {vs : List (List α)} (hvs : Separable sep vs) {before after : List α}
    (h : ended sep vs = before ++ sep :: after) :
    ∃ us vs', vs = us ++ vs' ∧ ended sep us = before ++ [sep] ∧ ended sep vs' = after := by
  induction vs generalizing before with
  | nil =>
    have hlength := congrArg List.length h
    simp at hlength
  | cons v vs ih =>
    rw [ended_cons] at h
    have hfree := (hvs v List.mem_cons_self).2
    by_cases hmem : sep ∈ before
    · obtain ⟨first, later, rfl, hfirst⟩ := List.eq_append_cons_of_mem hmem
      rw [List.append_assoc, List.cons_append] at h
      obtain ⟨rfl, hrest⟩ := append_cons_inj hfree hfirst h
      obtain ⟨us, vs', rfl, hus, hvs'⟩ := ih hvs.tail hrest
      refine ⟨v :: us, vs', rfl, ?_, hvs'⟩
      rw [ended_cons, hus, List.append_assoc, List.cons_append]
    · obtain ⟨rfl, hrest⟩ := append_cons_inj hfree hmem h
      exact ⟨[v], vs, rfl, by simp, hrest⟩

theorem frame_infix_iff {sep : α} {ws vs : List (List α)} (hws : Separable sep ws)
    (hvs : Separable sep vs) (hne : ws ≠ []) : frame sep ws <:+: frame sep vs ↔ ws <:+: vs := by
  by_cases hempty : vs = []
  · subst hempty
    exact iff_of_false (frame_not_infix_nil hws hne) (fun h => hne (List.infix_nil.1 h))
  constructor
  · rintro ⟨before, after, h⟩
    rw [frame_eq hne, frame_eq hempty] at h
    cases before with
    | nil => exact (isPrefix_of_ended hws hvs ⟨after, (List.cons.inj h).2⟩).isInfix
    | cons x before =>
      rw [List.cons_append, List.cons_append, List.cons.injEq, List.append_assoc,
        List.cons_append] at h
      obtain ⟨us, vs', rfl, -, hvs'⟩ := ended_split hvs h.2.symm
      have hlater : Separable sep vs' := fun v hv => hvs v (List.mem_append_right us hv)
      obtain ⟨rest, rfl⟩ := isPrefix_of_ended hws hlater ⟨after, hvs'.symm⟩
      exact ⟨us, rest, List.append_assoc us ws rest⟩
  · rintro ⟨us, rest, rfl⟩
    rw [frame_eq hne, frame_eq hempty, ended_append, ended_append]
    by_cases hus : us = []
    · subst hus
      exact ⟨[], ended sep rest, rfl⟩
    · refine ⟨sep :: joinWords sep us, ended sep rest, ?_⟩
      rw [← joinWords_append_sep sep hus]
      simp

theorem joinWords_append_singleton (sep : α) (ws : List (List α)) (w : List α) (h : ws ≠ []) :
    joinWords sep (ws ++ [w]) = joinWords sep ws ++ sep :: w := by
  have hended : joinWords sep (ws ++ [w]) ++ [sep] = joinWords sep ws ++ sep :: w ++ [sep] := by
    rw [joinWords_append_sep sep (by simp), ended_append, ← joinWords_append_sep sep h]
    simp
  exact List.append_cancel_right hended

/-- Joined words do not start with the separator. -/
theorem not_isPrefix_joinWords {sep : α} {ws : List (List α)} (h : Separable sep ws) :
    ¬ [sep] <+: joinWords sep ws := by
  intro hstart
  cases ws with
  | nil => cases (List.prefix_nil.1 hstart)
  | cons w ws =>
    have hended := hstart.trans (List.prefix_append _ [sep])
    rw [joinWords_append_sep sep (List.cons_ne_nil w ws), ended_cons] at hended
    obtain ⟨hne, hfree⟩ := h w List.mem_cons_self
    cases w with
    | nil => exact hne rfl
    | cons x w =>
      have hx := (List.cons_prefix_cons.1 hended).1
      exact hfree (hx ▸ List.mem_cons_self)

/-- Joined words, or their beginning with a separator after it. -/
theorem joinWords_eq_or_isPrefix_iff {sep : α} {ws vs : List (List α)} (hws : Separable sep ws)
    (hvs : Separable sep vs) (hne : ws ≠ []) :
    joinWords sep vs = joinWords sep ws ∨ joinWords sep ws ++ [sep] <+: joinWords sep vs ↔
      ws <+: vs := by
  rw [← frame_isPrefix_iff hws hvs hne, frame, frame, List.prefix_cons_inj, List.prefix_concat_iff,
    List.append_left_inj, eq_comm]

end Frames

/-! ## Searching and counting -/

section Occurrences

variable {α : Type u} [DecidableEq α]

/-- Whether `needle` occurs in a text. -/
def containsText (needle : List α) (text : List α) : Bool :=
  text.tails.any fun rest => needle.isPrefixOf rest

theorem containsText_iff {needle text : List α} :
    containsText needle text = true ↔ needle <:+: text := by
  simp only [containsText, List.any_eq_true, List.mem_tails, List.isPrefixOf_iff_prefix]
  constructor
  · rintro ⟨rest, hrest, hneedle⟩
    exact hneedle.isInfix.trans hrest.isInfix
  · rintro ⟨before, after, rfl⟩
    refine ⟨needle ++ after, ?_, List.prefix_append needle after⟩
    rw [List.append_assoc]
    exact List.suffix_append before (needle ++ after)

/-- The occurrences of a needle from left to right that do not overlap, after `skip` elements. -/
def countFrom (needle : List α) : ℕ → List α → ℕ
  | _, [] => 0
  | skip + 1, _ :: rest => countFrom needle skip rest
  | 0, x :: rest =>
    if needle.isPrefixOf (x :: rest) then countFrom needle (needle.length - 1) rest + 1
    else countFrom needle 0 rest

/-- How often a needle that is not empty occurs in a text, without overlaps. -/
def countText (needle text : List α) : ℕ := countFrom needle 0 text

theorem countFrom_eq_drop (needle : List α) (skip : ℕ) (text : List α) :
    countFrom needle skip text = countText needle (text.drop skip) := by
  induction skip generalizing text with
  | zero => rfl
  | succ skip ih =>
    cases text with
    | nil => rfl
    | cons x text => exact ih text

/-- A text of which no needle starts with the first word: counting starts after it. -/
theorem countText_append_of_not_mem {sep : α} {needle : List α} (w rest : List α) (hw : sep ∉ w) :
    countText (sep :: needle) (w ++ rest) = countText (sep :: needle) rest := by
  induction w with
  | nil => rfl
  | cons x w ih =>
    have hx : sep ≠ x := fun h => hw (h ▸ List.mem_cons_self)
    have hno : (sep :: needle).isPrefixOf (x :: (w ++ rest)) = false := by
      simp [List.isPrefixOf, hx]
    rw [List.cons_append, countText, countFrom, hno]
    exact ih fun h => hw (List.mem_cons_of_mem x h)

/-- The text with the occurrences of `old` replaced from left to right, after `skip` elements. -/
def replaceFrom (old new : List α) : ℕ → List α → List α
  | _, [] => []
  | skip + 1, _ :: rest => replaceFrom old new skip rest
  | 0, x :: rest =>
    if old.isPrefixOf (x :: rest) then new ++ replaceFrom old new (old.length - 1) rest
    else x :: replaceFrom old new 0 rest

/-- `strings.ReplaceAll`, for a text `old` that is not empty. -/
def replaceAll (old new text : List α) : List α := replaceFrom old new 0 text

theorem replaceFrom_eq_drop (old new : List α) (skip : ℕ) (text : List α) :
    replaceFrom old new skip text = replaceAll old new (text.drop skip) := by
  induction skip generalizing text with
  | zero => rfl
  | succ skip ih =>
    cases text with
    | nil => rfl
    | cons x text => exact ih text

theorem replaceAll_cons {old new : List α} {x : α} {rest : List α} (h : ¬ old <+: x :: rest) :
    replaceAll old new (x :: rest) = x :: replaceAll old new rest := by
  rw [replaceAll, replaceFrom, if_neg (by rwa [List.isPrefixOf_iff_prefix]), replaceAll]

theorem replaceAll_append {old new : List α} (hne : old ≠ []) (rest : List α) :
    replaceAll old new (old ++ rest) = new ++ replaceAll old new rest := by
  cases old with
  | nil => exact absurd rfl hne
  | cons y old =>
    have hstart : (y :: old).isPrefixOf (y :: (old ++ rest)) = true :=
      List.isPrefixOf_iff_prefix.2 (List.prefix_append (y :: old) rest)
    rw [List.cons_append, replaceAll, replaceFrom, if_pos hstart, replaceFrom_eq_drop, List.length_cons,
      Nat.add_sub_cancel, List.drop_left]

/-- How often a word occurs, where the word after a counted one is passed over. -/
def spacedCount (m : List α) : List (List α) → ℕ
  | [] => 0
  | [w] => if w = m then 1 else 0
  | w :: v :: ws => if w = m then spacedCount m ws + 1 else spacedCount m (v :: ws)

theorem spacedCount_cons (m w : List α) (ws : List (List α)) :
    spacedCount m (w :: ws) = if w = m then spacedCount m ws.tail + 1 else spacedCount m ws := by
  cases ws <;> rfl

theorem countText_ended {sep : α} {m : List α} (hm : sep ∉ m) :
    ∀ {vs : List (List α)}, Separable sep vs →
      countText (sep :: (m ++ [sep])) (sep :: ended sep vs) = spacedCount m vs := by
  intro vs
  induction hlength : vs.length using Nat.strong_induction_on generalizing vs with
  | _ n ih =>
  intro hvs
  cases vs with
  | nil =>
    have hno : (sep :: (m ++ [sep])).isPrefixOf [sep] = false := by
      cases m <;> simp [List.isPrefixOf]
    rw [ended_nil, countText, countFrom, hno]
    rfl
  | cons w ws =>
    have hw := (hvs w List.mem_cons_self).2
    rw [spacedCount_cons, ended_cons]
    by_cases hwm : w = m
    · subst hwm
      have hyes : (sep :: (w ++ [sep])).isPrefixOf (sep :: (w ++ sep :: ended sep ws)) = true := by
        rw [List.isPrefixOf_iff_prefix]
        exact ⟨ended sep ws, by simp⟩
      rw [if_pos rfl, countText, countFrom, hyes, if_pos rfl, countFrom_eq_drop]
      have hdrop : (w ++ sep :: ended sep ws).drop ((sep :: (w ++ [sep])).length - 1) =
          ended sep ws := by
        have hsplit : w ++ sep :: ended sep ws = w ++ [sep] ++ ended sep ws := by simp
        rw [hsplit, List.length_cons, Nat.add_sub_cancel, List.drop_left]
      rw [hdrop]
      congr 1
      cases ws with
      | nil => rfl
      | cons v ws =>
        rw [ended_cons, countText_append_of_not_mem v _ (hvs.tail v List.mem_cons_self).2]
        exact ih ws.length (by rw [← hlength, List.length_cons, List.length_cons]; omega) rfl hvs.tail.tail
    · have hno : (sep :: (m ++ [sep])).isPrefixOf (sep :: (w ++ sep :: ended sep ws)) = false := by
        rw [Bool.eq_false_iff]
        intro hyes
        rw [List.isPrefixOf_iff_prefix, List.prefix_cons_inj] at hyes
        obtain ⟨rest, hrest⟩ := hyes
        rw [List.append_assoc, List.singleton_append] at hrest
        exact hwm (append_cons_inj hm hw hrest).1.symm
      rw [if_neg hwm, countText, countFrom, hno]
      have hscan : countText (sep :: (m ++ [sep])) (w ++ sep :: ended sep ws) =
          countText (sep :: (m ++ [sep])) (sep :: ended sep ws) :=
        countText_append_of_not_mem w (sep :: ended sep ws) hw
      exact hscan.trans (ih ws.length (by rw [← hlength]; simp) rfl hvs.tail)

/-- Counting a framed word passes over the word after each counted one. -/
theorem countText_frame {sep : α} {m : List α} {vs : List (List α)} (hm : m ≠ []) (hsep : sep ∉ m)
    (hvs : Separable sep vs) :
    countText (frame sep [m]) (frame sep vs) = spacedCount m vs := by
  have hneedle : frame sep [m] = sep :: (m ++ [sep]) := by
    rw [frame, joinWords, List.intercalate_singleton]
  rw [hneedle]
  by_cases hempty : vs = []
  · subst hempty
    cases m with
    | nil => exact absurd rfl hm
    | cons x m =>
      have hx : sep ≠ x := fun h => hsep (h ▸ List.mem_cons_self)
      have hframe : frame sep ([] : List (List α)) = [sep, sep] := rfl
      rw [hframe]
      simp [countText, countFrom, List.isPrefixOf, spacedCount]
  · rw [frame_eq hempty]
    exact countText_ended hsep hvs

/-- A word that occurs is counted. -/
theorem spacedCount_eq_zero_iff {m : List α} {ws : List (List α)} :
    spacedCount m ws = 0 ↔ m ∉ ws := by
  induction ws with
  | nil => exact iff_of_true rfl List.not_mem_nil
  | cons w ws ih =>
    rw [spacedCount_cons, List.mem_cons, not_or, ← ih]
    by_cases h : w = m
    · rw [if_pos h]
      exact iff_of_false (by omega) (fun hne => hne.1 h.symm)
    · rw [if_neg h]
      exact (and_iff_right (Ne.symm h)).symm

end Occurrences

end BlackPearl.Library
