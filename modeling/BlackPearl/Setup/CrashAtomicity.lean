import BlackPearl.Library.Transition
import BlackPearl.Setup.RoundTrip

/-!
# Saving and clearing with crashes at any step

A setup directory over its whole life: it is opened, called, cut off in the middle of a call, and
opened again. Every call on a file may take effect, fail or be the last one. Whatever the directory
has gone through, after one more call the directory can be opened, and loading gives what it gave
before the call or what the call was to write (`crash_atomicity`).
-/

set_option autoImplicit false

namespace BlackPearl.Setup

open BlackPearl.Library BlackPearl.Library.Files BlackPearl.Library.Program

section Calls

variable [TextTables]

/-- A call of an open repository. -/
inductive DirectoryCall
  | saveManifest (cancelled : Bool) (token : ByteText) (manifest : SetupManifest)
      (fresh : FreshNames)
  | save (cancelled : Bool) (token : ByteText) (configuration : SetupConfiguration)
      (fresh : FreshNames)
  | clear (cancelled : Bool)
  | loadManifest (cancelled : Bool)

namespace DirectoryCall

/-- What the call does. -/
def program : DirectoryCall → SetupProgram Unit
  | saveManifest cancelled token manifest fresh => Setup.saveManifest cancelled token manifest fresh
  | save cancelled token configuration fresh => Setup.save cancelled token configuration fresh
  | clear cancelled => Setup.clear cancelled
  | loadManifest cancelled => do
      let _ ← Setup.loadManifest cancelled
      return ()

/-- Whether the call saves something. -/
def saves : DirectoryCall → Bool
  | saveManifest .. => true
  | save .. => true
  | clear _ => false
  | loadManifest _ => false

def clears : DirectoryCall → Bool
  | clear _ => true
  | _ => false

/-- What a load gives once the call has taken effect. -/
def Writes : DirectoryCall → ByteText × SetupManifest → Prop
  | saveManifest _ token manifest _, r => ∃ n, newSetupManifest manifest.items = .ok n ∧ r = (token, n)
  | save _ token c _, r =>
      ∃ v, newSetupConfiguration c.candidate c.title c.year = .ok v ∧ r = (token, ⟨[v]⟩)
  | clear _, _ => False
  | loadManifest _, _ => False

/-- What a call saves stays within the limits of the reader. -/
def Within : DirectoryCall → Prop
  | saveManifest _ token manifest _ =>
      ByteText.byteLength token ≤ 4095 ∧ manifest.isValid = true ∧
        ∀ n, newSetupManifest manifest.items = .ok n →
          ByteText.byteLength (marshalLine (encodeManifest n)) ≤ maxManifestBytes
  | save _ token c _ =>
      ByteText.byteLength token ≤ 4095 ∧ c.isValid = true ∧
        ∀ v, newSetupConfiguration c.candidate c.title c.year = .ok v →
          ByteText.byteLength (marshalLine (encodeConfiguration v)) ≤ maxConfigurationBytes
  | clear _ => True
  | loadManifest _ => True

end DirectoryCall

/-! ## The directory over time -/

/-- A directory, whether a repository has it open, and whether a save has returned without an error
since the directory was last asked to clear. -/
structure DirectoryState where
  tree : Tree
  opened : Bool
  saved : Bool

/-- A step, with what becomes of its calls on files. -/
inductive DirectoryLabel
  | new (verdicts : ℕ → Verdict ByteText)
  | call (call : DirectoryCall) (verdicts : ℕ → Verdict ByteText)

def DirectoryLabel.Within : DirectoryLabel → Prop
  | .new _ => True
  | .call c _ => c.Within

/-- Whether something is saved after a call. -/
def DirectoryCall.mark (call : DirectoryCall) (returned : Bool) (saved : Bool) : Bool :=
  !call.clears && (saved || call.saves && returned)

/-- Whether a call returned without an error. -/
def returned {ε α : Type} : Outcome ε α → Bool
  | .ok _ => true
  | _ => false

/-- Whether the process still runs. -/
def alive {ε α : Type} : Outcome ε α → Bool
  | .crashed => false
  | _ => true

def directorySystem : System DirectoryState DirectoryLabel where
  init s := Openable none s.tree ∧ s.opened = false ∧ s.saved = false
  step s
    | .new verdicts =>
        let (o, t) := new true ⟨s.tree, verdicts⟩
        some { s with tree := t.state, opened := returned o }
    | .call call verdicts =>
        if s.opened then
          let (o, t) := call.program ⟨s.tree, verdicts⟩
          some ⟨t.state, alive o, call.mark (returned o) s.saved⟩
        else none

theorem step_new (s : DirectoryState) (verdicts : ℕ → Verdict ByteText) :
    directorySystem.step s (.new verdicts) =
      some { s with
        tree := (new true ⟨s.tree, verdicts⟩).2.state
        opened := returned (new true ⟨s.tree, verdicts⟩).1 } :=
  rfl

theorem step_call {s : DirectoryState} (call : DirectoryCall) (verdicts : ℕ → Verdict ByteText)
    (h : s.opened = true) :
    directorySystem.step s (.call call verdicts) =
      some ⟨(call.program ⟨s.tree, verdicts⟩).2.state, alive (call.program ⟨s.tree, verdicts⟩).1,
        call.mark (returned (call.program ⟨s.tree, verdicts⟩).1) s.saved⟩ :=
  if_pos h

/-! ## What was saved is readable -/

/-- What the directory holds can be loaded. -/
def Readable (v : Option Saved) : Prop := ∀ s, v = some s → s.Named ∧ ∃ r, loaded s = .ok r

theorem Readable.named {v : Option Saved} (h : Readable v) : ∀ s, v = some s → s.Named :=
  fun s hs => (h s hs).1

/-- A saved manifest within the limits is loaded. -/
theorem loaded_savedManifest {items : List SetupConfiguration} {n : SetupManifest}
    {token : ByteText} (fresh : FreshNames) (hn : newSetupManifest items = .ok n)
    (htoken : validateToken token = .ok ()) (hshort : ByteText.byteLength token ≤ 4095)
    (hvalid : items.all SetupConfiguration.isValid = true)
    (hlen : ByteText.byteLength (marshalLine (encodeManifest n)) ≤ maxManifestBytes) :
    loaded (savedManifest token n fresh) = .ok (token, n) :=
  (loaded_savedManifest_iff fresh hn htoken).2 ⟨hshort, hlen, newSetupManifest_isValid hn hvalid⟩

/-- One checked movie makes a manifest. -/
theorem newSetupManifest_single {c : SetupConfiguration} {v : SetupConfiguration}
    (h : newSetupConfiguration c.candidate c.title c.year = .ok v) :
    newSetupManifest [v] = .ok ⟨[v]⟩ := by
  obtain ⟨path, hpath⟩ := setupVirtualPath_of_newSetupConfiguration h
  refine newSetupManifest_eq_ok.2 ⟨List.cons_ne_nil _ _, by simp [maximumSetupManifestItems],
    [path], ?_, ?_, ?_, ?_⟩
  · exact .cons (newSetupConfiguration_eq_ok h).again .nil
  · exact .cons hpath .nil
  · exact List.nodup_singleton _
  · exact List.nodup_singleton _

/-- A saved item within the limits is loaded as a manifest of its own. -/
theorem loaded_savedConfiguration {c v : SetupConfiguration} {token : ByteText} (fresh : FreshNames)
    (h : newSetupConfiguration c.candidate c.title c.year = .ok v)
    (htoken : validateToken token = .ok ()) (hshort : ByteText.byteLength token ≤ 4095)
    (hvalid : c.isValid = true)
    (hlen : ByteText.byteLength (marshalLine (encodeConfiguration v)) ≤ maxConfigurationBytes) :
    loaded (savedConfiguration token v fresh) = .ok (token, ⟨[v]⟩) := by
  have hline : ByteText.byteLength (token ++ text "\n") ≤ maxTokenBytes := by
    have hone : ByteText.byteLength (text "\n") = 1 := by decide
    rw [ByteText.byteLength_append, hone, maxTokenBytes]
    omega
  have hrepair := SetupConfiguration.repair_eq_self.2 ((newSetupConfiguration_eq_ok h).isValid hvalid)
  have hcontent : loadedState (savedConfiguration token v fresh).state = .ok ⟨[v]⟩ := by
    rw [savedConfiguration, loadedState, if_pos hlen]
    simp only [decodeSavedConfiguration, unmarshalConfiguration_marshal, hrepair,
      newSetupManifest_single h]
  rw [loaded_of_valid (s := savedConfiguration token v fresh) hline htoken, hcontent]
  rfl

/-! ## One call -/

/-- What the directory holds after a call, where it held `v` before. -/
inductive DirectoryCall.Leaves (call : DirectoryCall) (v : Option Saved) : Option Saved → Prop
  | same : Leaves call v v
  | written {x : Saved} {r : ByteText × SetupManifest} : x.Named → loaded x = .ok r →
      call.Writes r → Leaves call v (some x)
  | cleared : call.clears = true → Leaves call v none

theorem DirectoryCall.Leaves.readable {call : DirectoryCall} {v v' : Option Saved}
    (h : call.Leaves v v') (hv : Readable v) : Readable v' := by
  cases h with
  | same => exact hv
  | written hnamed hloaded _ =>
    rintro _ ⟨⟩
    exact ⟨hnamed, _, hloaded⟩
  | cleared _ =>
    rintro _ ⟨⟩

omit [TextTables] in
/-- Before the new generation is there, what the directory holds is apart from it. -/
theorem Holds.apart {v : Option Saved} {t : Tree} (ht : Holds v t) {x : Saved} {fresh : FreshNames}
    (hnone : t.lookup (generationRoot x.generation) = none) : Apart (Holds v) x fresh where
  generation := by
    apply Holds.ignores
    · exact not_within_generation _ _
    · exact not_within_generation _ _
    · rintro s rfl q hq hx
      have hsame := eq_of_within_generations hq hx
      have hdir := Commits.directory ht
      rw [hsame, hnone] at hdir
      cases hdir
  temporary := by
    apply Holds.ignores
    · intro h
      exact temporaryName_ne fresh.current (by decide) (List.cons.inj h).1.symm
    · intro h
      exact temporaryName_ne fresh.current (by decide) (List.cons.inj h).1.symm
    · rintro s rfl q hq rfl
      exact not_within_generation _ _ hq

/-- After a call the directory holds what it held before, what the call was to write, or nothing if
the call was to clear; a save that returns has written. -/
theorem DirectoryCall.program_spec {call : DirectoryCall} (hcall : call.Within) {v : Option Saved}
    (hv : Readable v) :
    Spec (fun _ => True) (Holds v) call.program
      (fun _ t => ∃ v', call.Leaves v v' ∧ (call.saves = true → v' ≠ none) ∧ Holds v' t)
      (fun _ t => ∃ v', call.Leaves v v' ∧ Holds v' t)
      (fun t => ∃ v', call.Leaves v v' ∧ Holds v' t) := by
  cases call with
  | saveManifest cancelled token manifest fresh =>
    obtain ⟨hshort, hvalid, hlen⟩ := hcall
    have hwritten : ∀ {n : SetupManifest}, newSetupManifest manifest.items = .ok n →
        validateToken token = .ok () →
        (DirectoryCall.saveManifest cancelled token manifest fresh).Leaves v
          (some (savedManifest token n fresh)) :=
      fun hn htoken => .written ⟨_, rfl⟩
        (loaded_savedManifest fresh hn htoken hshort hvalid (hlen _ hn)) ⟨_, hn, rfl⟩
    apply (saveManifest_spec (P := Holds v) fun n t ht hnone => ht.apart hnone).weaken
      (fun _ h => h)
    · rintro _ t ⟨⟨n, hn, htoken, hcommits⟩, -⟩
      exact ⟨_, hwritten hn htoken, fun _ => Option.some_ne_none _, hcommits⟩
    · rintro _ t (ht | ⟨n, hn, htoken, hcommits⟩)
      · exact ⟨v, .same, ht⟩
      · exact ⟨_, hwritten hn htoken, hcommits⟩
    · rintro t (ht | ⟨n, hn, htoken, hcommits⟩)
      · exact ⟨v, .same, ht⟩
      · exact ⟨_, hwritten hn htoken, hcommits⟩
  | save cancelled token c fresh =>
    obtain ⟨hshort, hvalid, hlen⟩ := hcall
    have hwritten : ∀ {n : SetupConfiguration},
        newSetupConfiguration c.candidate c.title c.year = .ok n → validateToken token = .ok () →
        (DirectoryCall.save cancelled token c fresh).Leaves v
          (some (savedConfiguration token n fresh)) :=
      fun hn htoken => .written ⟨_, rfl⟩
        (loaded_savedConfiguration fresh hn htoken hshort hvalid (hlen _ hn)) ⟨_, hn, rfl⟩
    apply (save_spec (P := Holds v) fun n t ht hnone => ht.apart hnone).weaken (fun _ h => h)
    · rintro _ t ⟨⟨n, hn, htoken, hcommits⟩, -⟩
      exact ⟨_, hwritten hn htoken, fun _ => Option.some_ne_none _, hcommits⟩
    · rintro _ t (ht | ⟨n, hn, htoken, hcommits⟩)
      · exact ⟨v, .same, ht⟩
      · exact ⟨_, hwritten hn htoken, hcommits⟩
    · rintro t (ht | ⟨n, hn, htoken, hcommits⟩)
      · exact ⟨v, .same, ht⟩
      · exact ⟨_, hwritten hn htoken, hcommits⟩
  | clear cancelled =>
    apply (clear_spec cancelled v).weaken (fun _ h => h)
    · rintro _ t ⟨ht, -⟩
      exact ⟨none, .cleared rfl, nofun, ht⟩
    · rintro _ t (ht | ht)
      · exact ⟨v, .same, ht⟩
      · exact ⟨none, .cleared rfl, ht⟩
    · rintro t (ht | ht)
      · exact ⟨v, .same, ht⟩
      · exact ⟨none, .cleared rfl, ht⟩
  | loadManifest cancelled =>
    have hload : Spec (fun _ => True) (Holds v) (Setup.loadManifest cancelled) (fun _ => Holds v)
        (fun _ => Holds v) (Holds v) := by
      cases cancelled with
      | true => exact .fail fun _ h => h
      | false =>
        cases v with
        | none =>
          exact (loadManifest_none_spec (P := Holds none) fun t ht => ht.2).weaken (fun _ h => h)
            (fun _ _ h => h.elim) (fun _ _ h => h.1) (fun _ h => h)
        | some x =>
          exact (loadManifest_spec (hv.named x rfl)).weaken (fun _ h => h) (fun _ _ h => h.1)
            (fun _ _ h => h.1) (fun _ h => h)
    apply Spec.bind (R := fun _ => Holds v)
    · exact hload.weaken (fun _ h => h) (fun _ _ h => h) (fun _ _ h => ⟨v, .same, h⟩)
        (fun _ h => ⟨v, .same, h⟩)
    · exact fun _ => .pure fun _ h => ⟨v, .same, nofun, h⟩

/-! ## Whole runs -/

/-- The directory holds `v`, which can be loaded, and something if a save has returned. -/
structure Sound (v : Option Saved) (s : DirectoryState) : Prop where
  readable : Readable v
  openable : Openable v s.tree
  holds : s.opened = true → Holds v s.tree
  saved : s.saved = true → v ≠ none

/-- A call takes effect or leaves what the directory holds, wherever it is cut off. -/
theorem Sound.call {v : Option Saved} {s s' : DirectoryState} {call : DirectoryCall}
    {verdicts : ℕ → Verdict ByteText} (h : Sound v s) (hcall : call.Within)
    (hstep : directorySystem.step s (.call call verdicts) = some s') :
    s.opened = true ∧ ∃ v', call.Leaves v v' ∧ Holds v' s'.tree ∧ (s'.saved = true → v' ≠ none) := by
  simp only [directorySystem] at hstep
  split at hstep
  · next hopen =>
    refine ⟨hopen, ?_⟩
    have hends := (DirectoryCall.program_spec hcall h.readable ⟨s.tree, verdicts⟩
      (fun _ => trivial) (h.holds hopen)).1
    generalize call.program ⟨s.tree, verdicts⟩ = ended at hstep hends
    obtain ⟨o, t⟩ := ended
    obtain rfl := Option.some.inj hstep
    -- a mark comes from this call or was there before, and this call does not clear
    have hmark : ∀ {v' : Option Saved}, call.Leaves v v' →
        (call.saves = true → returned o = true → v' ≠ none) →
        call.mark (returned o) s.saved = true → v' ≠ none := by
      intro v' hleaves hsaves hmarked
      simp only [DirectoryCall.mark, Bool.and_eq_true, Bool.or_eq_true, Bool.not_eq_true'] at hmarked
      obtain ⟨hclears, hold | hnew⟩ := hmarked
      · cases hleaves with
        | same => exact h.saved hold
        | written _ _ _ => exact Option.some_ne_none _
        | cleared hclear => exact absurd (hclear.symm.trans hclears) (by decide)
      · exact hsaves hnew.1 hnew.2
    cases hends with
    | ok hleft =>
      obtain ⟨v', hleaves, hsaves, hholds⟩ := hleft
      exact ⟨v', hleaves, hholds, hmark hleaves fun h _ => hsaves h⟩
    | error hleft =>
      obtain ⟨v', hleaves, hholds⟩ := hleft
      exact ⟨v', hleaves, hholds, hmark hleaves fun _ h => by cases h⟩
    | crashed hleft =>
      obtain ⟨⟨v', hleaves, hholds⟩, -⟩ := hleft
      exact ⟨v', hleaves, hholds, hmark hleaves fun _ h => by cases h⟩
  · cases hstep

/-- Opening leaves what the directory holds. -/
theorem Sound.new {v : Option Saved} {s s' : DirectoryState} {verdicts : ℕ → Verdict ByteText}
    (h : Sound v s) (hstep : directorySystem.step s (.new verdicts) = some s') : Sound v s' := by
  have hends := (new_spec (A := fun _ => True) h.readable.named ⟨s.tree, verdicts⟩
    (fun _ => trivial) h.openable).1
  simp only [directorySystem] at hstep
  generalize Setup.new true ⟨s.tree, verdicts⟩ = ended at hstep hends
  obtain ⟨o, t⟩ := ended
  obtain rfl := Option.some.inj hstep
  cases hends with
  | ok hleft => exact ⟨h.readable, hleft.1.openable, fun _ => hleft.1, h.saved⟩
  | error hleft => exact ⟨h.readable, hleft.1, nofun, h.saved⟩
  | crashed hleft => exact ⟨h.readable, hleft.1, nofun, h.saved⟩

/-- A reachable directory holds something that can be loaded, or nothing. -/
theorem sound_of_reachable {s : DirectoryState}
    (hs : directorySystem.ReachableBy (fun _ a => a.Within) s) : ∃ v, Sound v s := by
  apply hs.invariant
  · rintro s ⟨hopenable, hclosed, hunsaved⟩
    refine ⟨none, nofun, hopenable, fun h => ?_, fun h => ?_⟩
    · exact absurd (h.symm.trans hclosed) (by decide)
    · exact absurd (h.symm.trans hunsaved) (by decide)
  · rintro s a s' ⟨v, hv⟩ hwithin hstep
    cases a with
    | new verdicts => exact ⟨v, hv.new hstep⟩
    | call c verdicts =>
      obtain ⟨-, v', hleaves, hholds, hsaved⟩ := hv.call hwithin hstep
      exact ⟨v', hleaves.readable hv.readable, hholds.openable, fun _ => hholds, hsaved⟩

/-- What loading gives after a call, where it gave `before`. -/
inductive Recovered (before : Outcome SetupError (ByteText × SetupManifest)) (saved : Bool)
    (call : DirectoryCall) : Outcome SetupError (ByteText × SetupManifest) → Prop
  | previous {r : ByteText × SetupManifest} : before = .ok r → Recovered before saved call (.ok r)
  | written {r : ByteText × SetupManifest} : call.Writes r → Recovered before saved call (.ok r)
  | unsaved : before = .error errNotFound → saved = false →
      Recovered before saved call (.error errNotFound)
  | cleared : call.clears = true → Recovered before saved call (.error errNotFound)

/-- The generations that are left, if any, are the one that the pointer names; no entry of a
directory has the empty name. -/
def OnlyCurrent (t : Tree) : Prop :=
  ∀ n, n ≠ [] → t.lookup (generationRoot n) ≠ none → (readCurrentGeneration (.calm t)).1 = .ok n

/-- Nothing is left but what the pointer names. -/
theorem Holds.onlyCurrent {v : Option Saved} {t : Tree} (hv : Readable v) (ht : Holds v t)
    (honly : OnlyGeneration (kept v) t) : OnlyCurrent t := by
  intro n hne hn
  have hkept := honly n hn
  cases v with
  | none => exact absurd hkept hne
  | some x =>
    subst hkept
    apply Spec.decides (P := Commits x) (C := Commits x) (r := .ok x.generation) _ ht
    apply (readCurrentGeneration_spec (hv.named x rfl)).weaken (fun _ h => h) _ _ (fun _ h => h)
    · rintro g t ⟨-, rfl⟩
      rfl
    · rintro e t ⟨-, -, left, hfails⟩
      cases hfails

/-- Saving and clearing are atomic with respect to crashes. Take a directory after any calls, each of
which may have returned, failed or been cut off at any step, and one more call that may be cut off in
the same way. Then the directory can be opened; after that no generation is left but the current one,
and loading gives what it gave before the call or what the call was to write, and finds nothing only if
nothing was saved or the call was to clear. -/
theorem crash_atomicity {s s' : DirectoryState} {call : DirectoryCall}
    {verdicts : ℕ → Verdict ByteText}
    (hs : directorySystem.ReachableBy (fun _ a => a.Within) s) (hcall : call.Within)
    (hstep : directorySystem.step s (.call call verdicts) = some s') :
    ∃ t, new true (.calm s'.tree) = (.ok (), .calm t) ∧ OnlyCurrent t ∧
      Recovered (loadManifest false (.calm s.tree)).1 s.saved call
        (loadManifest false (.calm t)).1 := by
  obtain ⟨v, hv⟩ := sound_of_reachable hs
  obtain ⟨hopen, v', hleaves, hholds, -⟩ := hv.call hcall hstep
  have hreadable := hleaves.readable hv.readable
  obtain ⟨t, hnew, ht, honly⟩ := new_calm hreadable.named hholds.openable
  refine ⟨t, hnew, ht.onlyCurrent hreadable honly, ?_⟩
  rw [loadManifest_calm hreadable.named ht, loadManifest_calm hv.readable.named (hv.holds hopen)]
  cases hleaves with
  | same =>
    cases v with
    | none =>
      refine .unsaved rfl ?_
      by_contra hsaved
      exact hv.saved (Bool.eq_true_of_not_eq_false hsaved) rfl
    | some x =>
      obtain ⟨-, r, hr⟩ := hv.readable x rfl
      rw [loadedFrom, hr]
      exact .previous rfl
  | written _ hloaded hwrites =>
    rw [loadedFrom, hloaded]
    exact .written hwrites
  | cleared hclears => exact .cleared hclears

end Calls

section SmallRuns

attribute [local instance] TextTables.ascii

/-- A new directory that was opened. -/
def smallOpened : DirectoryState := ⟨smallDirectory.state, true, false⟩

def smallSave : DirectoryCall := .saveManifest false (text "t") smallManifest smallNames

/-- The process ends while it writes the pointer. -/
def cutOff : ℕ → Verdict ByteText := fun n => if n < 19 then .done else .crashes (text "07")

theorem smallSave_within : smallSave.Within := by
  refine ⟨by decide, by decide +kernel, fun n hn => ?_⟩
  have hall : (newSetupManifest smallManifest.items).toOption.all (fun n =>
      ByteText.byteLength (marshalLine (encodeManifest n)) ≤ maxManifestBytes) = true := by
    decide +kernel
  rw [hn] at hall
  simpa [Except.toOption] using hall

-- what follows never runs a program but in the kernel
attribute [local irreducible] new DirectoryCall.program

theorem smallOpened_reachable : directorySystem.ReachableBy (fun _ a => a.Within) smallOpened := by
  have hopened := step_new ⟨Tree.empty, false, false⟩ fun _ => .done
  have hreturned : returned (new true ⟨Tree.empty, fun _ => .done⟩).1 = true := by decide +kernel
  rw [hreturned] at hopened
  have hwithin : DirectoryLabel.Within (.new fun _ => .done) := trivial
  exact .step (.init ⟨openable_empty, rfl, rfl⟩) hwithin hopened

/-- The theorem above for a save that is cut off. -/
theorem crash_atomicity_small :
    (smallSave.program ⟨smallOpened.tree, cutOff⟩).1 = .crashed ∧
      ∃ t, new true (.calm (smallSave.program ⟨smallOpened.tree, cutOff⟩).2.state) =
          (.ok (), .calm t) ∧ OnlyCurrent t ∧
        Recovered (loadManifest false (.calm smallOpened.tree)).1 smallOpened.saved smallSave
          (loadManifest false (.calm t)).1 := by
  have hcut : (smallSave.program ⟨smallOpened.tree, cutOff⟩).1 = .crashed := by decide +kernel
  exact ⟨hcut, crash_atomicity smallOpened_reachable smallSave_within (step_call smallSave cutOff rfl)⟩

end SmallRuns

end BlackPearl.Setup
