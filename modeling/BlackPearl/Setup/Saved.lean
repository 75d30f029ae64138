import BlackPearl.Setup.Repository

/-!
# What a setup directory holds

`Commits s t` says that the pointer in the directory `t` names the generation `s` and that its files
are complete; `Holds` adds the directory without a pointer. Each call of the repository is specified
once: what it leaves when it returns, when it returns an error, and when the process ends within it.
Before the pointer is renamed nothing that the directory holds is touched, and after it nothing of the
new generation is.
-/

set_option autoImplicit false

namespace BlackPearl.Setup

open BlackPearl.Library BlackPearl.Library.Files BlackPearl.Library.Program

/-- The state file of a generation: a manifest, or the single item of a legacy generation. -/
inductive SavedState
  | manifest (content : ByteText)
  | configuration (content : ByteText)

/-- A committed generation. -/
structure Saved where
  generation : ByteText
  token : ByteText
  state : SavedState

def SavedState.filename : SavedState → ByteText
  | .manifest _ => manifestFilename
  | .configuration _ => configurationFilename

def SavedState.content : SavedState → ByteText
  | .manifest content => content
  | .configuration content => content

/-- A legacy generation has no manifest. -/
def SavedState.Alone (state : SavedState) (root : FilePath) (t : Tree) : Prop :=
  match state with
  | .manifest _ => True
  | .configuration _ => t.lookup (root ++ [manifestFilename]) = none

/-- The pointer names the generation, and its files are there. -/
structure Commits (s : Saved) (t : Tree) : Prop where
  pointer : t.lookup [currentFilename] = some (.file (s.generation ++ text "\n"))
  directory : t.lookup (generationRoot s.generation) = some .directory
  token : t.lookup (generationRoot s.generation ++ [tokenFilename]) =
    some (.file (s.token ++ text "\n"))
  state : t.lookup (generationRoot s.generation ++ [s.state.filename]) = some (.file s.state.content)
  alone : s.state.Alone (generationRoot s.generation) t

/-- What the directory holds: one generation, or none. -/
def Holds : Option Saved → Tree → Prop
  | none, t => t.lookup [generationsDirectory] = some .directory ∧ t.lookup [currentFilename] = none
  | some s, t => Commits s t

/-- The generation that is kept; no generation has the empty name. -/
def kept : Option Saved → ByteText
  | none => []
  | some s => s.generation

/-- No entry of the directory of generations is there but the one kept. -/
def OnlyGeneration (keep : ByteText) (t : Tree) : Prop :=
  ∀ n, t.lookup (generationRoot n) ≠ none → n = keep

/-! ## Names -/

theorem head?_temporaryName (suffix : ByteText) :
    (temporaryName suffix).head? = some (.char '.') := rfl

theorem temporaryName_ne (suffix : ByteText) {n : ByteText} (h : n.head? ≠ some (.char '.')) :
    temporaryName suffix ≠ n := by
  rintro rfl
  exact h (head?_temporaryName suffix)

theorem generationsDirectory_ne_current : generationsDirectory ≠ currentFilename := by decide

theorem tokenFilename_ne_filename (state : SavedState) : tokenFilename ≠ state.filename := by
  cases state <;> (rw [SavedState.filename]; decide)

theorem filename_ne_temporaryName (state : SavedState) (suffix : ByteText) :
    state.filename ≠ temporaryName suffix := by
  apply (temporaryName_ne suffix _).symm
  cases state <;> (rw [SavedState.filename]; decide)

/-- The pointer is not within a generation. -/
theorem not_within_generation (g n : ByteText) : ¬ generationRoot g <+: [n] := by
  intro h
  have hlen := h.length_le
  simp [generationRoot] at hlen

/-- Different generations have no path in common. -/
theorem eq_of_within_generations {g h : ByteText} {p : FilePath} (hg : generationRoot g <+: p)
    (hh : generationRoot h <+: p) : g = h := by
  obtain ⟨more, rfl⟩ := hg
  obtain ⟨more', hmore⟩ := hh
  simp only [generationRoot, List.cons_append, List.nil_append, List.cons.injEq, true_and] at hmore
  exact hmore.1.symm

/-! ## What the pointer's generation does not depend on -/

/-- A generation depends on the pointer and its own directory alone. -/
theorem Commits.congr {s : Saved} {t t' : Tree} (h : Commits s t)
    (hpointer : t'.lookup [currentFilename] = t.lookup [currentFilename])
    (hsame : ∀ q, generationRoot s.generation <+: q → t'.lookup q = t.lookup q) : Commits s t' where
  pointer := hpointer.trans h.pointer
  directory := (hsame _ List.prefix_rfl).trans h.directory
  token := (hsame _ (List.prefix_append _ _)).trans h.token
  state := (hsame _ (List.prefix_append _ _)).trans h.state
  alone := by
    have halone := h.alone
    unfold SavedState.Alone at halone ⊢
    split
    · trivial
    · next heq =>
      simp only [heq] at halone
      exact (hsame _ (List.prefix_append _ _)).trans halone

/-- The directory of generations exists where a generation does. -/
theorem Commits.generations {s : Saved} {t : Tree} (h : Commits s t) :
    t.lookup [generationsDirectory] = some .directory := by
  have hdir := h.directory
  exact t.parent [generationsDirectory] s.generation (by
    show t.lookup (generationRoot s.generation) ≠ none
    rw [hdir]
    simp)

theorem Holds.generations {v : Option Saved} {t : Tree} (h : Holds v t) :
    t.lookup [generationsDirectory] = some .directory := by
  cases v with
  | none => exact h.1
  | some s => exact Commits.generations h

/-- The directory itself exists. -/
theorem Holds.root {v : Option Saved} {t : Tree} (h : Holds v t) : t.lookup [] = some .directory := by
  apply t.parent [] generationsDirectory
  show t.lookup [generationsDirectory] ≠ none
  rw [Holds.generations h]
  exact Option.some_ne_none _

/-- Changes elsewhere leave what the directory holds. -/
theorem Holds.ignores {v : Option Saved} {S : FilePath → Prop} (hpointer : ¬ S [currentFilename])
    (hgenerations : ¬ S [generationsDirectory])
    (hsaved : ∀ s, v = some s → ∀ q, generationRoot s.generation <+: q → ¬ S q) :
    Ignores (Holds v) S := by
  intro t t' hsame h
  cases v with
  | none => exact ⟨(hsame _ hgenerations).trans h.1, (hsame _ hpointer).trans h.2⟩
  | some s => exact Commits.congr h (hsame _ hpointer) fun q hq => hsame q (hsaved s rfl q hq)

section Specs

variable {A : Verdict ByteText → Prop}

/-! ## Values that were computed -/

/-- A check leaves the state as it is. -/
theorem checked_spec {α : Type} (P : Tree → Prop) (r : Checked α) :
    Spec A P (checked r) (fun a t => P t ∧ r = .ok a)
      (fun e t => P t ∧ ∃ message, r = .error message ∧ e = newError message) P := by
  cases r with
  | ok a => exact .pure fun t ht => ⟨ht, rfl⟩
  | error message => exact .fail fun t ht => ⟨ht, message, rfl, rfl⟩

theorem computed_spec {α : Type} (P : Tree → Prop) (r : Except SetupError α) :
    Spec A P (computed r) (fun a t => P t ∧ r = .ok a) (fun e t => P t ∧ r = .error e) P := by
  cases r with
  | ok a => exact .pure fun t ht => ⟨ht, rfl⟩
  | error e => exact .fail fun t ht => ⟨ht, rfl⟩

/-! ## Cleaning up -/

/-- A synchronization of a directory that exists. -/
theorem syncDirectory_spec {P : Tree → Prop} {p : FilePath} (hp : ∀ t, P t → t.lookup p ≠ none) :
    Spec A P (syncDirectory p) (fun _ t => P t) (fun _ t => P t ∧ ∃ left, A (.fails left)) P := by
  apply Spec.bind (R := fun _ t => P t)
  · exact Spec.mapError (touch_exists_spec hp)
  · exact fun _ => Spec.mapError (touch_exists_spec hp)

/-- The clean-up keeps what the directory holds, and when it succeeds nothing else is left. -/
theorem cleanupInactiveGenerations_spec (v : Option Saved) :
    Spec A (Holds v) (cleanupInactiveGenerations (kept v))
      (fun _ t => Holds v t ∧ OnlyGeneration (kept v) t)
      (fun _ t => Holds v t ∧ ∃ left, A (.fails left)) (Holds v) := by
  unfold cleanupInactiveGenerations
  apply Spec.bind (readDir_spec fun t ht => Holds.generations ht)
  intro entries
  -- every generation is the one kept or still to come
  let I : List ByteText → Tree → Prop := fun rest t =>
    Holds v t ∧ ∀ n, t.lookup (generationRoot n) ≠ none → n = kept v ∨ n ∈ rest
  have hstep : ∀ name rest, name :: rest <:+ entries →
      Spec A (I (name :: rest))
        (if name = kept v then pure () else removeAll (generationRoot name) : SetupProgram Unit)
        (fun _ => I rest) (fun _ t => Holds v t ∧ ∃ left, A (.fails left)) (Holds v) := by
    intro name rest _
    split
    · next hname =>
      apply Spec.pure
      rintro t ⟨ht, hall⟩
      refine ⟨ht, fun n hn => ?_⟩
      rcases hall n hn with hn | hn
      · exact Or.inl hn
      · rcases List.mem_cons.1 hn with rfl | hn
        · exact Or.inl hname
        · exact Or.inr hn
    · next hname =>
      have hignores : Ignores (I (name :: rest)) (fun q => generationRoot name <+: q) := by
        rintro t t' hsame ⟨ht, hall⟩
        constructor
        · refine Holds.ignores ?_ ?_ ?_ t t' hsame ht
          · exact not_within_generation _ _
          · exact not_within_generation _ _
          · rintro s rfl q hq hremoved
            exact hname (eq_of_within_generations hremoved hq)
        · intro n hn
          by_cases hne : n = name
          · exact Or.inr (hne ▸ List.mem_cons_self)
          · rw [hsame] at hn
            · exact hall n hn
            · intro hprefix
              exact hne (eq_of_within_generations List.prefix_rfl hprefix)
      apply (removeAll_spec hignores).weaken (fun _ h => h)
      · rintro _ t ⟨⟨ht, hall⟩, hnone⟩
        refine ⟨ht, fun n hn => ?_⟩
        rcases hall n hn with hkept | hmem
        · exact Or.inl hkept
        · rcases List.mem_cons.1 hmem with rfl | hmem
          · exact absurd (hnone _ List.prefix_rfl) hn
          · exact Or.inr hmem
      · exact fun _ t h => ⟨h.1.1, h.2⟩
      · exact fun t h => h.1
  apply Spec.bind (R := fun _ => I [])
  · apply (Spec.forM hstep).weaken
    · rintro t ⟨ht, rfl⟩
      exact ⟨ht, fun n hn => Or.inr (Tree.mem_entryNames.2 hn)⟩
    · exact fun _ _ h => h
    · exact fun _ _ h => h
    · exact fun _ h => h
  · intro _
    apply (syncDirectory_spec (A := A) (P := I []) ?_).weaken (fun _ h => h)
    · rintro _ t ⟨ht, hall⟩
      exact ⟨ht, fun n hn => (hall n hn).resolve_right List.not_mem_nil⟩
    · exact fun _ t h => ⟨h.1.1, h.2⟩
    · exact fun t h => h.1
    · rintro t ⟨ht, _⟩
      rw [Holds.generations ht]
      simp

/-! ## Saving -/

/-- The files of a new generation, before the pointer names it. -/
structure Written (s : Saved) (t : Tree) : Prop where
  directory : t.lookup (generationRoot s.generation) = some .directory
  token : t.lookup (generationRoot s.generation ++ [tokenFilename]) =
    some (.file (s.token ++ text "\n"))
  state : t.lookup (generationRoot s.generation ++ [s.state.filename]) = some (.file s.state.content)
  alone : s.state.Alone (generationRoot s.generation) t

/-- A directory for a new generation, without a manifest. -/
structure Prepared (s : Saved) (t : Tree) : Prop where
  directory : t.lookup (generationRoot s.generation) = some .directory
  unwritten : t.lookup (generationRoot s.generation ++ [manifestFilename]) = none

/-- `P` speaks of nothing that saving `s` touches before the commit. -/
structure Apart (P : Tree → Prop) (s : Saved) (fresh : FreshNames) : Prop where
  generation : Ignores P (fun q => generationRoot s.generation <+: q)
  temporary : Ignores P (fun q => q = [temporaryName fresh.current])

/-- Writing within the new directory is apart from what ignores the directory. -/
theorem Apart.within {P : Tree → Prop} {s : Saved} {fresh : FreshNames} (h : Apart P s fresh)
    (n : ByteText) : Ignores P (fun q => q = generationRoot s.generation ++ [n]) :=
  h.generation.mono fun _ hq => hq ▸ List.prefix_append _ _

/-- A token file, then a state file, then the pointer: until the last rename whatever is apart from
the new generation stays, and the last rename commits the generation. -/
theorem writeGeneration_spec {P : Tree → Prop} {s : Saved} {fresh : FreshNames} {stateError : String}
    (hP : Apart P s fresh) :
    Spec A (fun t => P t ∧ Prepared s t)
      (writeGeneration s.generation s.token s.state.filename s.state.content stateError fresh)
      (fun _ t => Commits s t) (fun _ t => P t) P := by
  let root := generationRoot s.generation
  -- the token is written
  let P₁ : Tree → Prop := fun t => (P t ∧ Prepared s t) ∧
    t.lookup (root ++ [tokenFilename]) = some (.file (s.token ++ text "\n"))
  -- the state is written
  let P₂ : Tree → Prop := fun t => P t ∧ Written s t
  have hne : ∀ {n m : ByteText}, n ≠ m → root ++ [n] ≠ root ++ [m] := by
    intro n m h heq
    exact h (by simpa using List.append_cancel_left heq)
  have hroot : ∀ n : ByteText, root ≠ root ++ [n] := by
    intro n heq
    simpa using congrArg List.length heq
  have hprepared : ∀ n, n ≠ manifestFilename →
      Ignores (fun t => P t ∧ Prepared s t) (fun q => q = root ++ [n]) := by
    rintro n hn t t' hsame ⟨ht, hdir, hmanifest⟩
    exact ⟨hP.within n t t' hsame ht, (hsame _ (hroot n)).trans hdir,
      (hsame _ (hne hn.symm)).trans hmanifest⟩
  have htoken : Spec A (fun t => P t ∧ Prepared s t)
      (writeAtomic root tokenFilename fresh.token (s.token ++ text "\n"))
      (fun _ => P₁) (fun _ t => P t) P := by
    apply (replaceFile_spec (N := P₁) (hprepared _ (temporaryName_ne _ (by decide))) ?_).weaken
      (fun _ h => h) (fun _ _ h => h) (fun _ _ h => h.1) (fun _ h => h.1)
    rintro t t' ⟨ht, hdir, hmanifest⟩ hsame hcontent
    refine ⟨⟨?_, ?_, ?_⟩, hcontent⟩
    · apply hP.generation t t' _ ht
      intro q hq
      apply hsame q
      · rintro rfl
        exact hq (List.prefix_append _ _)
      · rintro rfl
        exact hq (List.prefix_append _ _)
    · exact (hsame _ (hroot _) (hroot _)).trans hdir
    · exact (hsame _ (hne (temporaryName_ne _ (by decide)).symm) (hne (by decide))).trans hmanifest
  have hstate : Spec A P₁ (writeAtomic root s.state.filename fresh.state s.state.content)
      (fun _ => P₂) (fun _ t => P t) P := by
    have hignores : Ignores P₁ (fun q => q = root ++ [temporaryName fresh.state]) := by
      rintro t t' hsame ⟨ht, htoken⟩
      refine ⟨hprepared _ (temporaryName_ne _ (by decide)) t t' hsame ht, ?_⟩
      exact (hsame _ (hne (temporaryName_ne _ (by decide)).symm)).trans htoken
    apply (replaceFile_spec (N := P₂) hignores ?_).weaken (fun _ h => h) (fun _ _ h => h)
      (fun _ _ h => h.1.1) (fun _ h => h.1.1)
    rintro t t' ⟨⟨ht, hdir, hmanifest⟩, htoken⟩ hsame hcontent
    refine ⟨?_, ?_, ?_, hcontent, ?_⟩
    · apply hP.generation t t' _ ht
      intro q hq
      apply hsame q
      · rintro rfl
        exact hq (List.prefix_append _ _)
      · rintro rfl
        exact hq (List.prefix_append _ _)
    · exact (hsame _ (hroot _) (hroot _)).trans hdir
    · exact (hsame _ (hne (temporaryName_ne _ (by decide)).symm)
        (hne (tokenFilename_ne_filename _))).trans htoken
    · cases hkind : s.state with
      | manifest content => trivial
      | configuration content =>
        have hother : manifestFilename ≠ s.state.filename := by
          rw [hkind, SavedState.filename]
          decide
        exact (hsame _ (hne (temporaryName_ne _ (by decide)).symm) (hne hother)).trans hmanifest
  have hsync : ∀ p, (∀ t, P₂ t → t.lookup p ≠ none) →
      Spec A P₂ (syncDirectory p) (fun _ => P₂) (fun _ t => P t) P := by
    intro p hp
    exact (syncDirectory_spec hp).weaken (fun _ h => h) (fun _ _ h => h) (fun _ _ h => h.1.1)
      (fun _ h => h.1)
  have hcommit : Spec A P₂
      (writeAtomic [] currentFilename fresh.current (s.generation ++ text "\n"))
      (fun _ t => Commits s t) (fun _ t => P t) P := by
    have hoff : ∀ {q : FilePath} {n : ByteText}, root <+: q → q ≠ [n] := by
      rintro q n hq rfl
      exact not_within_generation _ _ hq
    have halone : ∀ t t' : Tree, (∀ q, root <+: q → t'.lookup q = t.lookup q) →
        s.state.Alone root t → s.state.Alone root t' := by
      intro t t' hsame h
      cases hkind : s.state with
      | manifest content => trivial
      | configuration content =>
        rw [hkind] at h
        exact (hsame _ (List.prefix_append _ _)).trans h
    have hignores : Ignores P₂ (fun q => q = [temporaryName fresh.current]) := by
      rintro t t' hsame ⟨ht, hdir, htoken, hcontent, hleft⟩
      have hkeep : ∀ q, root <+: q → t'.lookup q = t.lookup q := fun q hq => hsame q (hoff hq)
      exact ⟨hP.temporary t t' hsame ht, (hkeep _ List.prefix_rfl).trans hdir,
        (hkeep _ (List.prefix_append _ _)).trans htoken,
        (hkeep _ (List.prefix_append _ _)).trans hcontent, halone t t' hkeep hleft⟩
    apply (replaceFile_spec (N := Commits s) hignores ?_).weaken (fun _ h => h) (fun _ _ h => h)
      (fun _ _ h => h.1) (fun _ h => h.1)
    rintro t t' ⟨-, hdir, htoken, hcontent, hleft⟩ hsame hpointer
    have hkeep : ∀ q, root <+: q → t'.lookup q = t.lookup q :=
      fun q hq => hsame q (hoff hq) (hoff hq)
    exact ⟨hpointer, (hkeep _ List.prefix_rfl).trans hdir,
      (hkeep _ (List.prefix_append _ _)).trans htoken,
      (hkeep _ (List.prefix_append _ _)).trans hcontent, halone t t' hkeep hleft⟩
  unfold writeGeneration
  apply Spec.bind (Spec.mapError htoken)
  intro _
  apply Spec.bind (Spec.mapError hstate)
  intro _
  have hexists : ∀ t, P₂ t → t.lookup root ≠ none := by
    intro t ht
    rw [ht.2.directory]
    exact Option.some_ne_none _
  have hgenerations : ∀ t, P₂ t → t.lookup [generationsDirectory] ≠ none := by
    intro t ht
    have hparent := t.parent [generationsDirectory] s.generation (hexists t ht)
    show t.nodes.lookup [generationsDirectory] ≠ none
    rw [hparent]
    exact Option.some_ne_none _
  apply Spec.bind (Spec.mapError (hsync root hexists))
  intro _
  apply Spec.bind (Spec.mapError (hsync [generationsDirectory] hgenerations))
  exact fun _ => Spec.mapError hcommit

/-- Discarding a new generation leaves what is apart from it, and always returns an error. -/
theorem discardGeneration_spec {P : Tree → Prop} {generation : ByteText} {e : SetupError}
    (hP : Ignores P (fun q => generationRoot generation <+: q)) :
    Spec A P (discardGeneration generation e) (fun _ _ => False) (fun _ t => P t) P := by
  have hremove : Spec A P (removeAll (generationRoot generation) : SetupProgram Unit)
      (fun _ t => P t) (fun _ t => P t) P :=
    (removeAll_spec hP).weaken (fun _ h => h) (fun _ _ h => h.1) (fun _ _ h => h.1) (fun _ h => h)
  have hsync : Spec A P (syncDirectory [generationsDirectory]) (fun _ t => P t) (fun _ t => P t) P := by
    apply Spec.bind (R := fun _ t => P t)
    · exact Spec.mapError (touch_spec _)
    · exact fun _ => Spec.mapError (touch_spec _)
  -- the errors of both calls are joined to the first one
  have hjoin : ∀ {m : SetupProgram Unit} {x y : SetupError},
      Spec A P m (fun _ t => P t) (fun _ t => P t) P →
      Spec A P (onError (do m; return x) fun _ => return y) (fun _ t => P t) (fun _ t => P t) P := by
    intro m x y hm
    apply Spec.onError (F := fun _ t => P t)
    · apply Spec.bind hm
      exact fun _ => .pure fun _ h => h
    · exact fun _ => .pure fun _ h => h
  unfold discardGeneration
  apply Spec.bind (hjoin hremove)
  intro e₁
  apply Spec.bind (hjoin hsync)
  exact fun _ => .fail fun _ h => h

/-- Saving a generation: when it returns the generation is committed and the only one; after an error
or a crash, what is apart from it still holds, or it is committed. -/
theorem commitGeneration_spec {P : Tree → Prop} {s : Saved} {fresh : FreshNames}
    {stateError : String} (hgeneration : s.generation = newGenerationID fresh.generation)
    (hapart : ∀ t, P t → t.lookup (generationRoot s.generation) = none → Apart P s fresh) :
    Spec A P (commitGeneration s.token s.state.filename s.state.content stateError fresh)
      (fun _ t => Commits s t ∧ OnlyGeneration s.generation t) (fun _ t => P t ∨ Commits s t)
      (fun t => P t ∨ Commits s t) := by
  have hmkdir : Spec A P (mkdir (generationRoot s.generation) : SetupProgram Unit)
      (fun _ t => (P t ∧ Prepared s t) ∧ Apart P s fresh) (fun _ t => P t) P := by
    apply mkdir_spec
    intro t t' ht hnone hsame hdir hempty
    have h := hapart t ht hnone
    refine ⟨⟨?_, hdir, ?_⟩, h⟩
    · exact h.generation t t' (fun q hq => hsame q fun heq => hq (heq ▸ List.prefix_rfl)) ht
    · apply hempty _ (List.prefix_append _ _)
      intro heq
      simpa using congrArg List.length heq
  have hsync : Spec A (Commits s) (syncDirectory []) (fun _ => Commits s)
      (fun _ t => P t ∨ Commits s t) (fun t => P t ∨ Commits s t) := by
    apply (syncDirectory_spec ?_).weaken (fun _ h => h) (fun _ _ h => h) (fun _ _ h => Or.inr h.1)
      (fun _ h => Or.inr h)
    intro t ht
    rw [Holds.root (v := some s) ht]
    exact Option.some_ne_none _
  have hcleanup : Spec A (Commits s) (cleanupInactiveGenerations s.generation)
      (fun _ t => Commits s t ∧ OnlyGeneration s.generation t) (fun _ t => P t ∨ Commits s t)
      (fun t => P t ∨ Commits s t) :=
    (cleanupInactiveGenerations_spec (some s)).weaken (fun _ h => h) (fun _ _ h => h)
      (fun _ _ h => Or.inr h.1) (fun _ h => Or.inr h)
  rw [commitGeneration, ← hgeneration]
  apply Spec.bind (Spec.mapError (hmkdir.weaken (fun _ h => h) (fun _ _ h => h)
    (fun _ _ h => Or.inl h) (fun _ h => Or.inl h)))
  intro _
  apply Spec.bind (R := fun _ => Commits s)
  · apply Spec.start
    rintro t ⟨ht, h⟩
    apply Spec.onError (F := fun _ t => P t)
    · exact (writeGeneration_spec h).weaken (by rintro _ rfl; exact ht) (fun _ _ h => h)
        (fun _ _ h => h) (fun _ h => Or.inl h)
    · intro e
      exact (discardGeneration_spec h.generation).weaken (fun _ h => h)
        (fun _ _ h => h.elim) (fun _ _ h => Or.inl h) (fun _ h => Or.inl h)
  · intro _
    apply Spec.bind hsync
    exact fun _ => Spec.mapError hcleanup

section Calls

variable [TextTables]

/-- What saving a manifest commits, once it is normalized. -/
def savedManifest (token : ByteText) (n : SetupManifest) (fresh : FreshNames) : Saved :=
  ⟨newGenerationID fresh.generation, token, .manifest (marshalLine (encodeManifest n))⟩

/-- What saving one item commits. -/
def savedConfiguration (token : ByteText) (c : SetupConfiguration) (fresh : FreshNames) : Saved :=
  ⟨newGenerationID fresh.generation, token, .configuration (marshalLine (encodeConfiguration c))⟩

/-- Saving a manifest commits its normal form, or leaves what is apart from the new generation. -/
theorem saveManifest_spec {P : Tree → Prop} {cancelled : Bool} {token : ByteText}
    {manifest : SetupManifest} {fresh : FreshNames}
    (hapart : ∀ n t, P t → t.lookup (generationRoot (newGenerationID fresh.generation)) = none →
      Apart P (savedManifest token n fresh) fresh) :
    let saves := fun t => ∃ n, newSetupManifest manifest.items = .ok n ∧
      validateToken token = .ok () ∧ Commits (savedManifest token n fresh) t
    Spec A P (saveManifest cancelled token manifest fresh)
      (fun _ t => saves t ∧ OnlyGeneration (newGenerationID fresh.generation) t)
      (fun _ t => P t ∨ saves t) (fun t => P t ∨ saves t) := by
  intro saves
  apply Spec.bind ((checked_spec P _).weaken (fun _ h => h) (fun _ _ h => h)
    (fun _ _ h => Or.inl h.1) (fun _ h => Or.inl h))
  intro n
  apply Spec.start
  rintro t₀ ⟨ht₀, hn⟩
  rw [within_eq_ok] at hn
  cases cancelled with
  | true =>
    apply Spec.fail
    rintro _ rfl
    exact Or.inl ht₀
  | false =>
    apply Spec.bind ((checked_spec P (validateToken token)).weaken (by rintro _ rfl; exact ht₀)
      (fun _ _ h => h) (fun _ _ h => Or.inl h.1) (fun _ h => Or.inl h))
    intro _
    apply Spec.start
    rintro t₁ ⟨ht₁, htoken⟩
    apply (commitGeneration_spec (s := savedManifest token n fresh) rfl (hapart n)).weaken
    · rintro _ rfl
      exact ht₁
    · exact fun _ t h => ⟨⟨n, hn, htoken, h.1⟩, h.2⟩
    · exact fun _ t h => h.imp id fun h => ⟨n, hn, htoken, h⟩
    · exact fun t h => h.imp id fun h => ⟨n, hn, htoken, h⟩

/-- Saving one item commits its normal form in the same way. -/
theorem save_spec {P : Tree → Prop} {cancelled : Bool} {token : ByteText}
    {c : SetupConfiguration} {fresh : FreshNames}
    (hapart : ∀ n t, P t → t.lookup (generationRoot (newGenerationID fresh.generation)) = none →
      Apart P (savedConfiguration token n fresh) fresh) :
    let saves := fun t => ∃ n, newSetupConfiguration c.candidate c.title c.year = .ok n ∧
      validateToken token = .ok () ∧ Commits (savedConfiguration token n fresh) t
    Spec A P (save cancelled token c fresh)
      (fun _ t => saves t ∧ OnlyGeneration (newGenerationID fresh.generation) t)
      (fun _ t => P t ∨ saves t) (fun t => P t ∨ saves t) := by
  intro saves
  cases cancelled with
  | true => exact .fail fun _ h => Or.inl h
  | false =>
    apply Spec.bind ((checked_spec P (validateToken token)).weaken (fun _ h => h)
      (fun _ _ h => h) (fun _ _ h => Or.inl h.1) (fun _ h => Or.inl h))
    intro _
    apply Spec.start
    rintro t₀ ⟨ht₀, htoken⟩
    apply Spec.bind ((checked_spec P _).weaken (by rintro _ rfl; exact ht₀) (fun _ _ h => h)
      (fun _ _ h => Or.inl h.1) (fun _ h => Or.inl h))
    intro n
    apply Spec.start
    rintro t₁ ⟨ht₁, hn⟩
    rw [within_eq_ok] at hn
    apply (commitGeneration_spec (s := savedConfiguration token n fresh) rfl (hapart n)).weaken
    · rintro _ rfl
      exact ht₁
    · exact fun _ t h => ⟨⟨n, hn, htoken, h.1⟩, h.2⟩
    · exact fun _ t h => h.imp id fun h => ⟨n, hn, htoken, h⟩
    · exact fun t h => h.imp id fun h => ⟨n, hn, htoken, h⟩

end Calls

/-! ## Clearing -/

/-- Clearing removes the pointer, or leaves it where it is. -/
theorem clear_spec (cancelled : Bool) (v : Option Saved) :
    Spec A (Holds v) (clear cancelled) (fun _ t => Holds none t ∧ OnlyGeneration [] t)
      (fun _ t => Holds v t ∨ Holds none t) (fun t => Holds v t ∨ Holds none t) := by
  have hremove : Spec A (Holds v)
      (onError (remove [currentFilename]) fun e =>
        if e.is .notExist then pure () else fail (newError "clear saved setup generation"))
      (fun _ => Holds none) (fun _ t => Holds v t ∨ Holds none t)
      (fun t => Holds v t ∨ Holds none t) := by
    apply Spec.onError (F := fun (e : SetupError) t =>
      Holds v t ∧ (t.lookup [currentFilename] = none ∨ e = FileErrors.failure))
    · apply (remove_spec (N := Holds none) ?_).weaken (fun _ h => h) (fun _ _ h => h)
        (fun _ _ h => h) (fun _ h => Or.inl h)
      intro t t' ht hsame hnone
      refine ⟨?_, hnone⟩
      rw [hsame]
      · exact Holds.generations ht
      · intro heq
        exact generationsDirectory_ne_current (List.cons.inj heq).1
    · intro e
      split
      · next his =>
        apply Spec.pure
        rintro t ⟨ht, hnone | rfl⟩
        · exact ⟨Holds.generations ht, hnone⟩
        · exact absurd his (by decide)
      · exact .fail fun _ h => Or.inl h.1
  cases cancelled with
  | true => exact .fail fun _ h => Or.inl h
  | false =>
    apply Spec.bind hremove
    intro _
    apply Spec.bind (R := fun _ => Holds none)
    · apply (syncDirectory_spec (P := Holds none) ?_).weaken (fun _ h => h) (fun _ _ h => h)
        (fun _ _ h => Or.inr h.1) (fun _ h => Or.inr h)
      intro t ht
      rw [ht.root]
      exact Option.some_ne_none _
    · intro _
      apply Spec.mapError
      exact (cleanupInactiveGenerations_spec none).weaken (fun _ h => h) (fun _ _ h => h)
        (fun _ _ h => Or.inr h.1) (fun _ h => Or.inr h)

end Specs

end BlackPearl.Setup
