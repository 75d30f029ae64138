import BlackPearl.Library.ByteText
import BlackPearl.Library.Crash
import BlackPearl.Library.Table
import Mathlib.Data.List.Sort

/-!
# Files and directories

A tree of files by path, and the calls on it as steps of programs that may fail and crash: a rename
takes effect at once or not at all, a write that is cut short leaves any content. `replaceFile`
writes a file beside its target and renames it; `removeAll` removes a directory with all below it.
-/

set_option autoImplicit false

namespace BlackPearl.Library

universe u

/-- The names from the root to a file or directory. -/
abbrev FilePath : Type := List ByteText

inductive Node
  | directory
  | file (content : ByteText)
  deriving DecidableEq, Repr

/-- The files and directories that exist: what holds an entry is a directory. -/
structure Tree where
  nodes : Table FilePath Node
  parent : ∀ p n, nodes.lookup (p ++ [n]) ≠ none → nodes.lookup p = some .directory

namespace Tree

def lookup (t : Tree) (p : FilePath) : Option Node := t.nodes.lookup p

/-- The tree without anything, the root included. -/
def empty : Tree := ⟨∅, fun _ _ h => absurd (AList.lookup_empty _) h⟩

/-- Put a node in its place; only a directory may take the place of a directory. -/
def insert (t : Tree) (p : FilePath) (n : Node)
    (hparent : p = [] ∨ t.lookup p.dropLast = some .directory)
    (hkeep : t.lookup p = some .directory → n = .directory) : Tree where
  nodes := t.nodes.insert p n
  parent q m h := by
    rw [Table.lookup_insert] at h ⊢
    by_cases hp : q ++ [m] = p
    · subst hp
      have hq : t.lookup q = some .directory := by simpa using hparent
      rw [if_neg (by simp)]
      exact hq
    · rw [if_neg hp] at h
      have hq := t.parent q m h
      split
      · next heq =>
        subst heq
        rw [hkeep hq]
      · exact hq

/-- Remove what has no entries. -/
def erase (t : Tree) (p : FilePath) (hnone : ∀ n, t.lookup (p ++ [n]) = none) : Tree where
  nodes := t.nodes.erase p
  parent q m h := by
    rw [Table.lookup_erase] at h ⊢
    by_cases hp : q ++ [m] = p
    · rw [if_pos hp] at h
      exact absurd rfl h
    · rw [if_neg hp] at h
      split
      · next heq =>
        subst heq
        exact absurd (hnone m) h
      · exact t.parent q m h

@[simp] theorem lookup_insert (t : Tree) (p q : FilePath) (n : Node) (hparent hkeep) :
    (t.insert p n hparent hkeep).lookup q = if q = p then some n else t.lookup q :=
  Table.lookup_insert t.nodes p q n

@[simp] theorem lookup_erase (t : Tree) (p q : FilePath) (hnone) :
    (t.erase p hnone).lookup q = if q = p then none else t.lookup q :=
  Table.lookup_erase t.nodes p q

/-- A file has no entries. -/
theorem lookup_entry {t : Tree} {p : FilePath} (h : t.lookup p ≠ some .directory) (n : ByteText) :
    t.lookup (p ++ [n]) = none := by
  by_contra hne
  exact h (t.parent p n hne)

/-- What exists and is not the root is an entry of a directory. -/
theorem lookup_dropLast {t : Tree} {p : FilePath} (h : t.lookup p ≠ none) :
    p = [] ∨ t.lookup p.dropLast = some .directory := by
  induction p using List.reverseRecOn with
  | nil => exact Or.inl rfl
  | append_singleton q n _ =>
    rw [List.dropLast_concat]
    exact Or.inr (t.parent q n h)

/-- Below what does not exist there is nothing. -/
theorem lookup_below {t : Tree} {p q : FilePath} (h : t.lookup p = none) (hq : p <+: q) :
    t.lookup q = none := by
  obtain ⟨more, rfl⟩ := hq
  induction more using List.reverseRecOn with
  | nil => rwa [List.append_nil]
  | append_singleton more n ih =>
    rw [← List.append_assoc]
    apply lookup_entry
    rw [ih]
    simp

/-- The paths below `p`, itself included, the longest first. -/
def below (t : Tree) (p : FilePath) : List FilePath :=
  (t.nodes.keys.filter fun q => p <+: q).insertionSort fun q r => r.length ≤ q.length

/-- The names of the entries of a directory, in order. -/
def entryNames (t : Tree) (p : FilePath) : List ByteText :=
  (t.nodes.keys.filterMap fun q => if q.dropLast = p then q.getLast? else none).insertionSort
    fun n m => ByteText.le n m

theorem mem_keys {t : Tree} {p : FilePath} : p ∈ t.nodes.keys ↔ t.lookup p ≠ none := by
  have h := AList.lookup_eq_none (s := t.nodes) (a := p)
  rw [lookup, ne_eq, h, not_not]
  rfl

theorem mem_below {t : Tree} {p q : FilePath} : q ∈ t.below p ↔ t.lookup q ≠ none ∧ p <+: q := by
  rw [below, List.mem_insertionSort, List.mem_filter, decide_eq_true_eq, mem_keys]

theorem mem_entryNames {t : Tree} {p : FilePath} {n : ByteText} :
    n ∈ t.entryNames p ↔ t.lookup (p ++ [n]) ≠ none := by
  rw [entryNames, List.mem_insertionSort, List.mem_filterMap]
  constructor
  · rintro ⟨q, hq, h⟩
    split at h
    · next heq =>
      subst heq
      have hlast : q.dropLast ++ [n] = q := List.dropLast_append_getLast? n h
      rw [hlast]
      exact mem_keys.1 hq
    · cases h
  · intro h
    exact ⟨p ++ [n], mem_keys.2 h, by simp⟩

/-- What is alone in the list of the paths below it has no entries. -/
theorem lookup_entry_of_below {t : Tree} {p : FilePath} (h : t.below p = [p]) (n : ByteText) :
    t.lookup (p ++ [n]) = none := by
  by_contra hne
  have hmem : p ++ [n] ∈ t.below p := mem_below.2 ⟨hne, List.prefix_append p [n]⟩
  rw [h, List.mem_singleton] at hmem
  simpa using congrArg List.length hmem

end Tree

/-- The errors of calls on files. -/
class FileErrors (ε : Type u) where
  notExist : ε
  alreadyExists : ε
  failure : ε

/-- A program on files; a write that is cut short leaves some content. -/
abbrev FileProgram (ε α : Type) : Type := Program Tree ByteText ε α

namespace Files

open Program

variable {ε α : Type} [FileErrors ε]

/-- A call that takes effect at once or not at all. -/
def atOnce (effect : Tree → Except ε (α × Tree)) : FileProgram ε α :=
  step effect (fun _ t => t) FileErrors.failure

/-- `os.Mkdir`. -/
def mkdir (p : FilePath) : FileProgram ε Unit :=
  atOnce fun t =>
    if t.lookup p = none then
      if hparent : t.lookup p.dropLast = some .directory then
        .ok ((), t.insert p .directory (Or.inr hparent) fun _ => rfl)
      else .error FileErrors.notExist
    else .error FileErrors.alreadyExists

/-- `os.MkdirAll` of a directory whose parent exists, or of the root. -/
def mkdirAll (p : FilePath) : FileProgram ε Unit :=
  atOnce fun t =>
    match t.lookup p with
    | some .directory => .ok ((), t)
    | some (.file _) => .error FileErrors.failure
    | none =>
        if hparent : p = [] ∨ t.lookup p.dropLast = some .directory then
          .ok ((), t.insert p .directory hparent fun _ => rfl)
        else .error FileErrors.notExist

/-- A call that changes neither names nor contents: a change of permissions, a synchronization. -/
def touch (p : FilePath) : FileProgram ε Unit :=
  atOnce fun t => if t.lookup p = none then .error FileErrors.notExist else .ok ((), t)

/-- Create an empty file that must not exist. -/
def createFile (p : FilePath) : FileProgram ε Unit :=
  atOnce fun t =>
    if hnone : t.lookup p = none then
      if hparent : t.lookup p.dropLast = some .directory then
        .ok ((), t.insert p (.file []) (Or.inr hparent) fun h => by rw [hnone] at h; cases h)
      else .error FileErrors.notExist
    else .error FileErrors.alreadyExists

/-- The tree with another content of a file, if there is such a file. -/
def setContent (p : FilePath) (content : ByteText) (t : Tree) : Tree :=
  if h : t.lookup p ≠ none ∧ t.lookup p ≠ some .directory then
    t.insert p (.file content) (Tree.lookup_dropLast h.1) fun hdir => absurd hdir h.2
  else t

/-- Write a file that exists. -/
def write (p : FilePath) (content : ByteText) : FileProgram ε Unit :=
  step
    (fun t =>
      match t.lookup p with
      | some (.file _) => .ok ((), setContent p content t)
      | some .directory => .error FileErrors.failure
      | none => .error FileErrors.notExist)
    (setContent p) FileErrors.failure

/-- `os.Rename` of a file onto a file or a new name. -/
def rename (p q : FilePath) : FileProgram ε Unit :=
  atOnce fun t =>
    match hfile : t.lookup p with
    | some (.file c) =>
        if h : t.lookup q ≠ some .directory ∧ t.lookup q.dropLast = some .directory then
          .ok ((), (t.erase p (Tree.lookup_entry (by rw [hfile]; simp))).insert q (.file c)
            (Or.inr (by
              rw [Tree.lookup_erase, if_neg (by rintro heq; rw [← heq, h.2] at hfile; cases hfile)]
              exact h.2))
            (by
              intro hdir
              rw [Tree.lookup_erase] at hdir
              split at hdir
              · cases hdir
              · exact absurd hdir h.1))
        else .error FileErrors.failure
    | some .directory => .error FileErrors.failure
    | none => .error FileErrors.notExist

/-- `os.Remove` of a file or an empty directory. -/
def remove (p : FilePath) : FileProgram ε Unit :=
  atOnce fun t =>
    if t.lookup p = none then .error FileErrors.notExist
    else if h : t.below p = [p] then .ok ((), t.erase p (Tree.lookup_entry_of_below h))
    else .error FileErrors.failure

/-- `os.ReadFile`. -/
def readFile (p : FilePath) : FileProgram ε ByteText :=
  atOnce fun t =>
    match t.lookup p with
    | some (.file c) => .ok (c, t)
    | some .directory => .error FileErrors.failure
    | none => .error FileErrors.notExist

/-- `os.ReadDir`. -/
def readDir (p : FilePath) : FileProgram ε (List ByteText) :=
  atOnce fun t =>
    match t.lookup p with
    | some .directory => .ok (t.entryNames p, t)
    | some (.file _) => .error FileErrors.failure
    | none => .error FileErrors.notExist

/-- Do it and ignore an error. -/
def attempt (m : FileProgram ε Bool) : FileProgram ε Bool := onError m fun _ => pure false

/-- Remove the paths in turn, going on after an error; whether all went well. -/
def removeEach : Bool → List FilePath → FileProgram ε Bool
  | ok, [] => pure ok
  | ok, p :: ps => do
      let removed ← attempt (do remove p; return true)
      removeEach (ok && removed) ps

/-- `os.RemoveAll`. -/
def removeAll (p : FilePath) : FileProgram ε Unit := do
  let found ← atOnce fun t => .ok (t.below p, t)
  let ok ← removeEach true found
  if ok then return () else fail FileErrors.failure

/-- Write `content` to a new file `temporary` and put it in the place of `target`; on an error the
new file is removed, if that is possible. -/
def replaceFile (temporary target : FilePath) (content : ByteText) : FileProgram ε Unit := do
  createFile temporary
  onError
    (do
      touch temporary
      write temporary content
      touch temporary
      touch temporary
      rename temporary target)
    (fun e => do
      let _ ← attempt (do remove temporary; return true)
      fail e)

/-! ## What each call leaves alone -/

/-- `I` does not depend on the paths in `S`. -/
def Ignores (I : Tree → Prop) (S : FilePath → Prop) : Prop :=
  ∀ t t' : Tree, (∀ q, ¬ S q → t'.lookup q = t.lookup q) → I t → I t'

theorem Ignores.mono {I : Tree → Prop} {S S' : FilePath → Prop} (h : Ignores I S)
    (hS : ∀ q, S' q → S q) : Ignores I S' :=
  fun t t' hsame => h t t' fun q hq => hsame q fun hq' => hq (hS q hq')

theorem Ignores.insert {I : Tree → Prop} {p : FilePath} (h : Ignores I (fun q => q = p)) {t : Tree}
    {n : Node} {hparent hkeep} (ht : I t) : I (t.insert p n hparent hkeep) :=
  h t _ (fun q hq => by rw [Tree.lookup_insert, if_neg hq]) ht

theorem Ignores.erase {I : Tree → Prop} {p : FilePath} (h : Ignores I (fun q => q = p)) {t : Tree}
    {hnone} (ht : I t) : I (t.erase p hnone) :=
  h t _ (fun q hq => by rw [Tree.lookup_erase, if_neg hq]) ht

section Specs

variable {A : Verdict ByteText → Prop} {P : Tree → Prop} {E : ε → Tree → Prop} {C : Tree → Prop}

theorem atOnce_spec {effect : Tree → Except ε (α × Tree)} {Q : α → Tree → Prop}
    (hok : ∀ t a t', P t → effect t = .ok (a, t') → Q a t')
    (herror : ∀ t e, P t → effect t = .error e → E e t)
    (hfails : ∀ t left, P t → A (.fails left) → E FileErrors.failure t)
    (hcrashes : ∀ t left, P t → A (.crashes left) → C t) : Spec A P (atOnce effect) Q E C :=
  Spec.step hok herror hfails hcrashes

theorem touch_spec (p : FilePath) :
    Spec A P (touch p : FileProgram ε Unit) (fun _ t => P t) (fun _ t => P t) P := by
  apply atOnce_spec
  · intro t _ t' ht h
    split at h
    · cases h
    · cases h
      exact ht
  · exact fun _ _ ht _ => ht
  · exact fun _ _ ht _ => ht
  · exact fun _ _ ht _ => ht

/-- Where the path exists, such a call fails only if the environment lets it. -/
theorem touch_exists_spec {p : FilePath} (hp : ∀ t, P t → t.lookup p ≠ none) :
    Spec A P (touch p : FileProgram ε Unit) (fun _ t => P t)
      (fun _ t => P t ∧ ∃ left, A (.fails left)) P := by
  apply atOnce_spec
  · intro t _ t' ht h
    rw [if_neg (hp t ht)] at h
    cases h
    exact ht
  · intro t e ht h
    rw [if_neg (hp t ht)] at h
    cases h
  · exact fun t left ht hA => ⟨ht, left, hA⟩
  · exact fun _ _ ht _ => ht

/-- A directory is there afterwards, and where it was not there it is new. -/
theorem mkdirAll_spec {p : FilePath} {N : Tree → Prop}
    (hp : ∀ t, P t → t.lookup p = some .directory ∨
      t.lookup p = none ∧ (p = [] ∨ t.lookup p.dropLast = some .directory))
    (hN : ∀ t t', P t → (∀ q, q ≠ p → t'.lookup q = t.lookup q) →
      t'.lookup p = some .directory → N t') :
    Spec A P (mkdirAll p : FileProgram ε Unit) (fun _ t => N t)
      (fun _ t => P t ∧ ∃ left, A (.fails left)) P := by
  apply atOnce_spec
  · intro t _ t' ht h
    rcases hp t ht with hdir | ⟨hnone, hparent⟩
    · simp only [hdir] at h
      cases h
      exact hN t t ht (fun _ _ => rfl) hdir
    · simp only [hnone] at h
      rw [dif_pos hparent] at h
      cases h
      apply hN t _ ht
      · intro q hq
        rw [Tree.lookup_insert, if_neg hq]
      · rw [Tree.lookup_insert, if_pos rfl]
  · intro t e ht h
    rcases hp t ht with hdir | ⟨hnone, hparent⟩
    · simp only [hdir] at h
      cases h
    · simp only [hnone] at h
      rw [dif_pos hparent] at h
      cases h
  · exact fun t left ht hA => ⟨ht, left, hA⟩
  · exact fun _ _ ht _ => ht

theorem readDir_spec {p : FilePath} (hp : ∀ t, P t → t.lookup p = some .directory) :
    Spec A P (readDir p : FileProgram ε (List ByteText))
      (fun names t => P t ∧ names = t.entryNames p) (fun _ t => P t ∧ ∃ left, A (.fails left)) P := by
  apply atOnce_spec
  · intro t _ t' ht h
    simp only [hp t ht] at h
    cases h
    exact ⟨ht, rfl⟩
  · intro t e ht h
    simp only [hp t ht] at h
    cases h
  · exact fun t left ht hA => ⟨ht, left, hA⟩
  · exact fun _ _ ht _ => ht

/-- Reading a file whose content is known. -/
theorem readFile_spec {p : FilePath} {content : ByteText}
    (hp : ∀ t, P t → t.lookup p = some (.file content)) :
    Spec A P (readFile p : FileProgram ε ByteText) (fun c t => P t ∧ c = content)
      (fun e t => P t ∧ e = FileErrors.failure ∧ ∃ left, A (.fails left)) P := by
  apply atOnce_spec
  · intro t _ t' ht h
    simp only [hp t ht] at h
    cases h
    exact ⟨ht, rfl⟩
  · intro t e ht h
    simp only [hp t ht] at h
    cases h
  · exact fun t left ht hA => ⟨ht, rfl, left, hA⟩
  · exact fun _ _ ht _ => ht

/-- Reading a file that does not exist. -/
theorem readFile_none_spec {p : FilePath} (hp : ∀ t, P t → t.lookup p = none) :
    Spec A P (readFile p : FileProgram ε ByteText) (fun _ _ => False)
      (fun e t => P t ∧ (e = FileErrors.notExist ∨ ∃ left, A (.fails left))) P := by
  apply atOnce_spec
  · intro t _ t' ht h
    simp only [hp t ht] at h
    cases h
  · intro t e ht h
    simp only [hp t ht] at h
    cases h
    exact ⟨ht, Or.inl rfl⟩
  · exact fun t left ht hA => ⟨ht, Or.inr ⟨left, hA⟩⟩
  · exact fun _ _ ht _ => ht

/-- A new directory was not there before, and is empty. -/
theorem mkdir_spec {p : FilePath} {N : Tree → Prop}
    (hN : ∀ t t', P t → t.lookup p = none → (∀ q, q ≠ p → t'.lookup q = t.lookup q) →
      t'.lookup p = some .directory → (∀ q, p <+: q → q ≠ p → t'.lookup q = none) → N t') :
    Spec A P (mkdir p : FileProgram ε Unit) (fun _ t => N t) (fun _ t => P t) P := by
  apply atOnce_spec
  · intro t _ t' ht h
    split at h
    · next hnone =>
      split at h
      · cases h
        apply hN t _ ht hnone
        · intro q hq
          rw [Tree.lookup_insert, if_neg hq]
        · rw [Tree.lookup_insert, if_pos rfl]
        · intro q hpq hne
          rw [Tree.lookup_insert, if_neg hne]
          exact Tree.lookup_below hnone hpq
      · cases h
    · cases h
  · exact fun _ _ ht _ => ht
  · exact fun _ _ ht _ => ht
  · exact fun _ _ ht _ => ht

theorem createFile_spec {p : FilePath} (hP : Ignores P (fun q => q = p)) :
    Spec A P (createFile p : FileProgram ε Unit) (fun _ t => P t) (fun _ t => P t) P := by
  apply atOnce_spec
  · intro t _ t' ht h
    split at h
    · split at h
      · cases h
        exact hP.insert ht
      · cases h
    · cases h
  · exact fun _ _ ht _ => ht
  · exact fun _ _ ht _ => ht
  · exact fun _ _ ht _ => ht

/-- A file is removed, was not there, or could not be removed. -/
theorem remove_spec {p : FilePath} {N : Tree → Prop}
    (hN : ∀ t t', P t → (∀ q, q ≠ p → t'.lookup q = t.lookup q) → t'.lookup p = none → N t') :
    Spec A P (remove p : FileProgram ε Unit) (fun _ t => N t)
      (fun e t => P t ∧ (t.lookup p = none ∨ e = FileErrors.failure)) P := by
  apply atOnce_spec
  · intro t _ t' ht h
    split at h
    · cases h
    · split at h
      · cases h
        apply hN t _ ht
        · intro q hq
          rw [Tree.lookup_erase, if_neg hq]
        · rw [Tree.lookup_erase, if_pos rfl]
      · cases h
  · intro t e ht h
    split at h
    · next hnone => exact ⟨ht, Or.inl hnone⟩
    · split at h
      · cases h
      · cases h
        exact ⟨ht, Or.inr rfl⟩
  · exact fun _ _ ht _ => ⟨ht, Or.inr rfl⟩
  · exact fun _ _ ht _ => ht

/-- A write leaves the file with the content, or with some content. -/
theorem write_spec {p : FilePath} {content : ByteText} (hP : Ignores P (fun q => q = p)) :
    Spec A P (write p content : FileProgram ε Unit)
      (fun _ t => P t ∧ t.lookup p = some (.file content)) (fun _ t => P t) P := by
  have hset : ∀ (c : ByteText) (t : Tree), P t → P (setContent p c t) := by
    intro c t ht
    unfold setContent
    split
    · exact hP.insert ht
    · exact ht
  apply Spec.step
  · intro t _ t' ht h
    split at h
    · next c hfile =>
      cases h
      refine ⟨hset content t ht, ?_⟩
      rw [setContent, dif_pos ⟨by rw [hfile]; simp, by rw [hfile]; simp⟩, Tree.lookup_insert,
        if_pos rfl]
    · cases h
    · cases h
  · exact fun _ _ ht _ => ht
  · exact fun t left ht _ => hset left t ht
  · exact fun t left ht _ => hset left t ht

omit [FileErrors ε] in
theorem attempt_spec {m : FileProgram ε Bool} {Q : Bool → Tree → Prop} {F : ε → Tree → Prop}
    (hm : Spec A P m Q F C) (hF : ∀ e t, F e t → Q false t) :
    Spec A P (attempt m) Q (fun _ _ => False) C := by
  apply Spec.onError (F := F)
  · exact hm
  · exact fun e => .pure fun t ht => hF e t ht

/-- A rename puts the file in the place of the target. -/
theorem rename_spec {p q : FilePath} {content : ByteText} {N : Tree → Prop}
    (hN : ∀ t t', P t → (∀ r, r ≠ p → r ≠ q → t'.lookup r = t.lookup r) →
      t'.lookup q = some (.file content) → N t') :
    Spec A (fun t => P t ∧ t.lookup p = some (.file content)) (rename p q : FileProgram ε Unit)
      (fun _ t => N t) (fun _ t => P t) P := by
  apply atOnce_spec
  · rintro t _ t' ⟨ht, hfile⟩ h
    split at h
    · next c hc =>
      obtain rfl : c = content := by
        rw [hfile] at hc
        exact (Node.file.inj (Option.some.inj hc)).symm
      split at h
      · cases h
        apply hN t _ ht
        · intro r hrp hrq
          rw [Tree.lookup_insert, if_neg hrq, Tree.lookup_erase, if_neg hrp]
        · rw [Tree.lookup_insert, if_pos rfl]
      · cases h
    · cases h
    · cases h
  · exact fun _ _ ht _ => ht.1
  · exact fun _ _ ht _ => ht.1
  · exact fun _ _ ht _ => ht.1

/-- Replacing a file takes effect with the rename: what ignores the new file holds until then, and
still holds after an error or a crash. -/
theorem replaceFile_spec {temporary target : FilePath} {content : ByteText} {N : Tree → Prop}
    (hP : Ignores P (fun q => q = temporary))
    (hN : ∀ t t', P t → (∀ r, r ≠ temporary → r ≠ target → t'.lookup r = t.lookup r) →
      t'.lookup target = some (.file content) → N t') :
    Spec A P (replaceFile temporary target content : FileProgram ε Unit) (fun _ t => N t)
      (fun _ t => P t) P := by
  apply Spec.bind (createFile_spec hP)
  intro _
  apply Spec.onError (F := fun _ t => P t)
  · apply Spec.bind (touch_spec temporary)
    intro _
    apply Spec.bind (write_spec hP)
    intro _
    -- closing and synchronizing the file keep what the write has reached
    have hkeep : Spec A (fun t => P t ∧ t.lookup temporary = some (.file content))
        (touch temporary : FileProgram ε Unit)
        (fun _ t => P t ∧ t.lookup temporary = some (.file content)) (fun _ t => P t) P :=
      (touch_spec temporary).weaken (fun _ h => h) (fun _ _ h => h) (fun _ _ h => h.1)
        (fun _ h => h.1)
    apply Spec.bind hkeep
    intro _
    apply Spec.bind hkeep
    intro _
    exact rename_spec hN
  · intro e
    have hremove : Spec A P (do remove temporary; return true : FileProgram ε Bool)
        (fun _ t => P t) (fun _ t => P t) P := by
      have hspec : Spec A P (remove temporary : FileProgram ε Unit) (fun _ t => P t)
          (fun _ t => P t) P :=
        (remove_spec fun t t' ht hsame _ => hP t t' hsame ht).weaken (fun _ h => h)
          (fun _ _ h => h) (fun _ _ h => h.1) (fun _ h => h)
      apply Spec.bind hspec
      exact fun _ => .pure fun _ h => h
    apply Spec.bind (R := fun _ t => P t)
    · exact (attempt_spec hremove fun _ _ h => h).weaken (fun _ h => h) (fun _ _ h => h)
        (fun _ _ h => h.elim) (fun _ h => h)
    · exact fun _ => .fail fun _ h => h

/-! ## Removing a directory with all below it -/

/-- Below `p` there are exactly the paths `ps`, each once, the longest first. -/
structure Exactly (p : FilePath) (ps : List FilePath) (t : Tree) : Prop where
  mem : ∀ q, p <+: q → (t.lookup q ≠ none ↔ q ∈ ps)
  nodup : ps.Nodup
  sorted : ps.Pairwise fun q r => r.length ≤ q.length
  prefix_of_mem : ∀ q ∈ ps, p <+: q

theorem exactly_below (p : FilePath) (t : Tree) : Exactly p (t.below p) t where
  mem q hq := by
    rw [Tree.mem_below]
    exact ⟨fun h => ⟨h, hq⟩, fun h => h.1⟩
  nodup := by
    have hperm := List.perm_insertionSort (fun q r : FilePath => r.length ≤ q.length)
      (t.nodes.keys.filter fun q => p <+: q)
    exact hperm.nodup_iff.2 (t.nodes.keys_nodup.filter _)
  sorted := by
    have htotal : Std.Total (fun q r : FilePath => r.length ≤ q.length) :=
      ⟨fun q r => Nat.le_total r.length q.length⟩
    have htrans : IsTrans FilePath (fun q r => r.length ≤ q.length) :=
      ⟨fun _ _ _ h₁ h₂ => Nat.le_trans h₂ h₁⟩
    exact List.pairwise_insertionSort _ _
  prefix_of_mem q hq := (Tree.mem_below.1 hq).2

/-- The first of the paths below `p` has nothing below it but itself. -/
theorem Exactly.below_head {p q : FilePath} {ps : List FilePath} {t : Tree}
    (h : Exactly p (q :: ps) t) : t.below q = [q] := by
  have hpq := h.prefix_of_mem q List.mem_cons_self
  have hmem : ∀ r, r ∈ t.below q ↔ r = q := by
    intro r
    rw [Tree.mem_below]
    constructor
    · rintro ⟨hr, hqr⟩
      have hin := (h.mem r (hpq.trans hqr)).1 hr
      rcases List.mem_cons.1 hin with rfl | hin
      · rfl
      · have hlen := (List.pairwise_cons.1 h.sorted).1 r hin
        exact (hqr.eq_of_length_le hlen).symm
    · rintro rfl
      exact ⟨(h.mem r hpq).2 List.mem_cons_self, List.prefix_rfl⟩
  have hnodup := (exactly_below q t).nodup
  generalize t.below q = l at hmem hnodup
  cases l with
  | nil => exact absurd ((hmem q).2 rfl) List.not_mem_nil
  | cons r l =>
    obtain rfl := (hmem r).1 List.mem_cons_self
    cases l with
    | nil => rfl
    | cons s l =>
      obtain rfl := (hmem s).1 (List.mem_cons_of_mem _ List.mem_cons_self)
      exact absurd List.mem_cons_self (List.nodup_cons.1 hnodup).1

theorem Exactly.erase {p q : FilePath} {ps : List FilePath} {t : Tree}
    {hnone} (h : Exactly p (q :: ps) t) : Exactly p ps (t.erase q hnone) where
  mem r hr := by
    have hold := h.mem r hr
    have hfresh := (List.nodup_cons.1 h.nodup).1
    rw [Tree.lookup_erase]
    by_cases heq : r = q
    · subst heq
      simp [hfresh]
    · rw [if_neg heq, hold, List.mem_cons, or_iff_right heq]
  nodup := (List.nodup_cons.1 h.nodup).2
  sorted := (List.pairwise_cons.1 h.sorted).2
  prefix_of_mem r hr := h.prefix_of_mem r (List.mem_cons_of_mem _ hr)

/-- Removing the paths in turn keeps what ignores them; if nothing fails, none is left. -/
theorem removeEach_spec {p : FilePath} (hP : Ignores P (fun q => p <+: q)) :
    ∀ (ps : List FilePath) (ok : Bool), (∀ q ∈ ps, p <+: q) →
      Spec A (fun t => P t ∧ (ok = true → Exactly p ps t)) (removeEach ok ps : FileProgram ε Bool)
        (fun ok' t => P t ∧ (ok' = true → Exactly p [] t) ∧
          ((∀ left, ¬ A (.fails left)) → ok = true → ok' = true)) (fun _ _ => False) P
  | [], ok, _ => .pure fun t ht => ⟨ht.1, ht.2, fun _ hok => hok⟩
  | q :: ps, ok, hps => by
    have hq : p <+: q := hps q List.mem_cons_self
    have hPq : Ignores P (fun r => r = q) := hP.mono fun r hr => hr ▸ hq
    -- whether the removal succeeds or not, it reaches the next path
    have hremove : Spec A (fun t => P t ∧ (ok = true → Exactly p (q :: ps) t))
        (attempt (do remove q; return true) : FileProgram ε Bool)
        (fun removed t => P t ∧ ((ok && removed) = true → Exactly p ps t) ∧
          ((∀ left, ¬ A (.fails left)) → ok = true → removed = true)) (fun _ _ => False) P := by
      apply attempt_spec (F := fun _ t => P t ∧ ((∀ left, ¬ A (.fails left)) → ok = false))
      · apply Spec.bind (R := fun _ t => P t ∧ (ok = true → Exactly p ps t))
        · apply atOnce_spec
          · intro t _ t' ht h
            split at h
            · cases h
            · split at h
              · cases h
                exact ⟨hPq.erase ht.1, fun hok => (ht.2 hok).erase⟩
              · cases h
          · rintro t e ⟨ht, hexactly⟩ h
            refine ⟨ht, fun _ => ?_⟩
            by_contra hok
            have hall := hexactly (by simpa using hok)
            have hmem : t.lookup q ≠ none := (hall.mem q hq).2 List.mem_cons_self
            rw [if_neg hmem, dif_pos hall.below_head] at h
            cases h
          · exact fun t left ht hA => ⟨ht.1, fun hcalm => absurd hA (hcalm left)⟩
          · exact fun t left ht _ => ht.1
        · exact fun _ => .pure fun t ht => ⟨ht.1, fun h => ht.2 (by simpa using h), fun _ _ => rfl⟩
      · rintro e t ⟨ht, hok⟩
        refine ⟨ht, fun h => ?_, fun hcalm h => ?_⟩
        · rw [Bool.and_false] at h
          cases h
        · rw [hok hcalm] at h
          cases h
    rw [removeEach]
    apply Spec.bind (hremove.weaken (fun _ h => h) (fun _ _ h => h) (fun _ _ h => h.elim)
      (fun _ h => h))
    intro removed
    apply Spec.start
    rintro t ⟨ht, hexactly, hcalm⟩
    have hrest := removeEach_spec hP ps (ok && removed) fun r hr => hps r (List.mem_cons_of_mem _ hr)
    apply hrest.weaken
    · rintro s rfl
      exact ⟨ht, hexactly⟩
    · rintro ok' s ⟨hs, hnone, hall⟩
      refine ⟨hs, hnone, fun hA hok => hall hA ?_⟩
      rw [hok, hcalm hA hok]
      rfl
    · exact fun _ _ h => h
    · exact fun _ h => h

/-- Removing a directory keeps what ignores it, and when it succeeds nothing is left there; without
failures it succeeds. -/
theorem removeAll_spec {p : FilePath} (hP : Ignores P (fun q => p <+: q)) :
    Spec A P (removeAll p : FileProgram ε Unit) (fun _ t => P t ∧ ∀ q, p <+: q → t.lookup q = none)
      (fun _ t => P t ∧ ∃ left, A (.fails left)) P := by
  apply Spec.bind (R := fun found t => P t ∧ Exactly p found t)
  · apply atOnce_spec
    · intro t _ t' ht h
      cases h
      exact ⟨ht, exactly_below p t⟩
    · intro t _ _ h
      cases h
    · exact fun t left ht hA => ⟨ht, left, hA⟩
    · exact fun t left ht _ => ht
  · intro found
    apply Spec.start
    rintro t ⟨ht, hexactly⟩
    have heach := removeEach_spec (A := A) (ε := ε) hP found true hexactly.prefix_of_mem
    have hstart : ∀ s, s = t → P s ∧ (true = true → Exactly p found s) := by
      rintro s rfl
      exact ⟨ht, fun _ => hexactly⟩
    apply Spec.bind (heach.weaken hstart (fun _ _ h => h) (fun _ _ h => h.elim) (fun _ h => h))
    · intro ok
      cases ok with
      | true =>
        apply Spec.pure
        rintro s ⟨hs, hnone, -⟩
        refine ⟨hs, fun q hq => ?_⟩
        by_contra hmem
        exact List.not_mem_nil (((hnone rfl).mem q hq).1 hmem)
      | false =>
        apply Spec.fail
        rintro s ⟨hs, -, hcalm⟩
        refine ⟨hs, ?_⟩
        by_contra hnone
        exact absurd (hcalm (fun left hA => hnone ⟨left, hA⟩) rfl) (by decide)

end Specs

end Files

end BlackPearl.Library
