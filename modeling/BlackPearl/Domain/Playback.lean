import BlackPearl.Library.Text

/-!
# Episode coordinates and playback evidence

The values of `internal/domain/playback.go`: one exact episode of a show with the order in which
episodes follow each other, and the evidence that an episode is being watched.
-/

set_option autoImplicit false

namespace BlackPearl.Domain

open BlackPearl.Library

/-- `EpisodeCoordinate`. -/
structure EpisodeCoordinate where
  season : ℤ
  episode : ℤ
  deriving DecidableEq, Repr

/-- `NewEpisodeCoordinate`. -/
def newEpisodeCoordinate (season episode : ℤ) : Checked EpisodeCoordinate := do
  require (¬ (season < 1 ∨ 99 < season))
    ("episode season must be between 1 and 99: " ++ toString season)
  require (¬ (episode < 1 ∨ 999 < episode))
    ("episode number must be between 1 and 999: " ++ toString episode)
  return ⟨season, episode⟩

/-- `EpisodeCoordinate.After`. -/
def EpisodeCoordinate.After (c other : EpisodeCoordinate) : Prop :=
  other.season < c.season ∨ c.season = other.season ∧ other.episode < c.episode

instance (c other : EpisodeCoordinate) : Decidable (c.After other) :=
  inferInstanceAs (Decidable (_ ∨ _))

theorem EpisodeCoordinate.After.trans {a b c : EpisodeCoordinate} (hab : a.After b)
    (hbc : b.After c) : a.After c := by
  simp only [EpisodeCoordinate.After] at hab hbc ⊢
  omega

theorem EpisodeCoordinate.After.ne {a b : EpisodeCoordinate} (hab : a.After b) : a ≠ b := by
  rintro rfl
  simp only [EpisodeCoordinate.After] at hab
  omega

/-- A checked coordinate is the pair that was checked, and is in range. -/
theorem newEpisodeCoordinate_eq_ok {season episode : ℤ} {c : EpisodeCoordinate} :
    newEpisodeCoordinate season episode = .ok c ↔
      c = ⟨season, episode⟩ ∧ 1 ≤ season ∧ season ≤ 99 ∧ 1 ≤ episode ∧ episode ≤ 999 := by
  simp only [newEpisodeCoordinate, bind_eq_ok, pure_eq_ok, require_eq_ok]
  constructor
  · rintro ⟨_, hseason, _, hepisode, rfl⟩
    exact ⟨rfl, by omega, by omega, by omega, by omega⟩
  · rintro ⟨rfl, h₁, h₂, h₃, h₄⟩
    exact ⟨(), by omega, (), by omega, rfl⟩

/-- `EpisodePlayback`; offsets and durations are in nanoseconds. -/
structure EpisodePlayback where
  externalShowID : String
  virtualPath : String
  coordinate : EpisodeCoordinate
  viewOffset : ℤ
  duration : ℤ
  deriving DecidableEq, Repr

/-- `EpisodePlayback.Qualifies`. -/
def EpisodePlayback.qualifies (p : EpisodePlayback) (minimumOffset minimumPercent : ℤ) : Bool :=
  if minimumOffset ≤ 0 ∨ minimumPercent < 1 ∨ 99 < minimumPercent then false
  else minimumOffset ≤ p.viewOffset && p.duration * minimumPercent ≤ p.viewOffset * 100

end BlackPearl.Domain
