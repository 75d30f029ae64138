import BlackPearl.Library.Decimal

/-!
# Two orders of episodes

Episodes in the order of their numbers, and in the order that their paths have as texts. A season has
two digits in a path and an episode two or three, so the orders differ within a season that goes on
beyond episode 99: number 100 comes right after number 10. The first episode after a given one is the
same in both orders exactly when `TextOrderAgrees` holds.
-/

set_option autoImplicit false

namespace BlackPearl.Catalog

open BlackPearl.Library

/-- The season and the number of an episode. -/
structure EpisodeKey where
  season : ℕ
  number : ℕ
  deriving DecidableEq, Repr

/-- The order of broadcast. -/
def EpisodeKey.Before (k l : EpisodeKey) : Prop :=
  k.season < l.season ∨ k.season = l.season ∧ k.number < l.number

/-- The order of the paths. -/
def EpisodeKey.TextBefore (k l : EpisodeKey) : Prop :=
  k.season < l.season ∨ k.season = l.season ∧ textRank k.number < textRank l.number

/-- What comes first after `c` among the episodes in `S`, if anything does. -/
def IsFirstAfter (R : EpisodeKey → EpisodeKey → Prop) (S : EpisodeKey → Prop) (c : EpisodeKey) :
    Option EpisodeKey → Prop
  | none => ∀ k, S k → ¬ R c k
  | some k => S k ∧ R c k ∧ ∀ l, S l → R c l → ¬ R l k

/-- After number `e` of a season with the numbers `N`, the text order goes on as the numbers do.

For `e` of two digits: when the season has a later number of two digits, the first two digits of
each number of three digits are below `e`, or not below some later number of two digits; otherwise
they are not below `e`. For `e` of three digits: each number of two digits is not above the first
two digits of `e`, or above those of some later number. -/
def InOrder (N : ℕ → Prop) (e : ℕ) : Prop :=
  (e < 100 → ∀ b, N b → 100 ≤ b →
    ((∃ a, N a ∧ e < a ∧ a < 100) → b / 10 < e ∨ ∃ a, N a ∧ e < a ∧ a < 100 ∧ a ≤ b / 10) ∧
    ((∀ a, N a → e < a → 100 ≤ a) → e ≤ b / 10)) ∧
  (100 ≤ e → ∀ a, N a → a < 100 → a ≤ e / 10 ∨ ∃ b, N b ∧ e < b ∧ b / 10 < a)

/-- Where the two orders agree on what comes first after `c`: they do within its season, and, when no
later number of the season is there, from the beginning of the next season that is. -/
def TextOrderAgrees (S : EpisodeKey → Prop) (c : EpisodeKey) : Prop :=
  InOrder (fun n => S ⟨c.season, n⟩) c.number ∧
    ((∀ n, S ⟨c.season, n⟩ → n ≤ c.number) → ∀ k, S k → c.season < k.season →
      (∀ l, S l → c.season < l.season → k.season ≤ l.season) →
      InOrder (fun n => S ⟨k.season, n⟩) 0)

theorem textRank_of_lt {n : ℕ} (h : n < 100) : textRank n = 11 * n := if_pos h

theorem textRank_of_le {n : ℕ} (h : 100 ≤ n) : textRank n = 11 * (n / 10) + 1 + n % 10 :=
  if_neg (not_lt.2 h)

/-! ## Within a season -/

/-- `n` comes first in the text order of the numbers `N` after `e`. -/
structure FirstText (N : ℕ → Prop) (e n : ℕ) : Prop where
  mem : N n
  lt : textRank e < textRank n
  first : ∀ m, N m → textRank e < textRank m → ¬ textRank m < textRank n

/-- Within a season in order, something follows in the text order when something does by number. -/
theorem exists_textRank_lt {N : ℕ → Prop} {e n : ℕ} (h : InOrder N e) (hn : N n) (hlt : e < n) :
    ∃ m, N m ∧ textRank e < textRank m := by
  rcases Nat.lt_or_ge e 100 with he | he
  · rw [textRank_of_lt he]
    by_cases hlow : ∃ a, N a ∧ e < a ∧ a < 100
    · obtain ⟨a, ha, hea, ha100⟩ := hlow
      exact ⟨a, ha, by rw [textRank_of_lt ha100]; omega⟩
    · have hhigh : ∀ a, N a → e < a → 100 ≤ a := by
        intro a ha hea
        by_contra hnot
        exact hlow ⟨a, ha, hea, by omega⟩
      have hn100 := hhigh n hn hlt
      have hle := (h.1 he n hn hn100).2 hhigh
      exact ⟨n, hn, by rw [textRank_of_le hn100]; omega⟩
  · exact ⟨n, hn, by rw [textRank_of_le he, textRank_of_le (by omega)]; omega⟩

/-- What comes first in the text order of a season in order has a later number. -/
theorem FirstText.lt_of_inOrder {N : ℕ → Prop} {e n : ℕ} (hf : FirstText N e n)
    (h : InOrder N e) : e < n := by
  obtain ⟨hn, hlt, hfirst⟩ := hf
  rcases Nat.lt_or_ge e 100 with he | he
  · rcases Nat.lt_or_ge n 100 with hn100 | hn100
    · rw [textRank_of_lt he, textRank_of_lt hn100] at hlt
      omega
    · omega
  · rcases Nat.lt_or_ge n 100 with hn100 | hn100
    · rw [textRank_of_le he, textRank_of_lt hn100] at hlt
      rcases h.2 he n hn hn100 with hle | ⟨b, hb, heb, hbn⟩
      · omega
      · -- a later number of three digits stands before `n`
        have hbefore := hfirst b hb (by rw [textRank_of_le he, textRank_of_le (by omega)]; omega)
        rw [textRank_of_le (by omega), textRank_of_lt hn100] at hbefore
        omega
    · rw [textRank_of_le he, textRank_of_le hn100] at hlt
      omega

/-- And no number lies between the two. -/
theorem FirstText.not_lt_of_inOrder {N : ℕ → Prop} {e n : ℕ} (hf : FirstText N e n)
    (h : InOrder N e) {m : ℕ} (hm : N m) (hem : e < m) : ¬ m < n := by
  intro hmn
  have hen := hf.lt_of_inOrder h
  obtain ⟨hn, hlt, hfirst⟩ := hf
  rcases Nat.lt_or_ge n 100 with hn100 | hn100
  · have hbefore := hfirst m hm (by
      rw [textRank_of_lt (by omega), textRank_of_lt (by omega)]
      omega)
    rw [textRank_of_lt (by omega), textRank_of_lt hn100] at hbefore
    omega
  · rcases Nat.lt_or_ge m 100 with hm100 | hm100
    · -- `m` has two digits, so some number of two digits stands before `n` in the text order
      rcases (h.1 (by omega) n hn hn100).1 ⟨m, hm, hem, hm100⟩ with hlow | ⟨a, ha, hea, ha100, han⟩
      · rw [textRank_of_lt (by omega), textRank_of_le hn100] at hlt
        omega
      · have hbefore := hfirst a ha (by
          rw [textRank_of_lt (by omega), textRank_of_lt ha100]
          omega)
        rw [textRank_of_lt ha100, textRank_of_le hn100] at hbefore
        omega
    · rcases Nat.lt_or_ge (textRank e) (textRank m) with hbetween | hnot
      · have hbefore := hfirst m hm hbetween
        rw [textRank_of_le hm100, textRank_of_le hn100] at hbefore
        omega
      · rcases Nat.lt_or_ge e 100 with he | he
        · rw [textRank_of_lt he, textRank_of_le hm100] at hnot
          have hmore := h.1 he m hm hm100
          by_cases hlow : ∃ a, N a ∧ e < a ∧ a < 100
          · obtain ⟨a, ha, hea, ha100⟩ := hlow
            rcases (h.1 he n hn hn100).1 ⟨a, ha, hea, ha100⟩ with hl | ⟨a', ha', hea', ha100', han⟩
            · rw [textRank_of_lt he, textRank_of_le hn100] at hlt
              omega
            · have hbefore := hfirst a' ha' (by
                rw [textRank_of_lt he, textRank_of_lt ha100']
                omega)
              rw [textRank_of_lt ha100', textRank_of_le hn100] at hbefore
              omega
          · have hle := hmore.2 (by
              intro a ha hea
              by_contra hnot'
              exact hlow ⟨a, ha, hea, by omega⟩)
            omega
        · rw [textRank_of_le he, textRank_of_le hm100] at hnot
          omega

theorem exists_firstText {N : ℕ → Prop} {e n : ℕ} (hn : N n) (hlt : textRank e < textRank n) :
    ∃ m, FirstText N e m ∧ textRank m ≤ textRank n := by
  induction hrank : textRank n using Nat.strong_induction_on generalizing n with
  | _ rank ih =>
    subst hrank
    by_cases hearlier : ∃ m, N m ∧ textRank e < textRank m ∧ textRank m < textRank n
    · obtain ⟨m, hm, hem, hmn⟩ := hearlier
      obtain ⟨k, hk, hkm⟩ := ih (textRank m) hmn hm hem rfl
      exact ⟨k, hk, by omega⟩
    · exact ⟨n, ⟨hn, hlt, fun m hm hem hmn => hearlier ⟨m, hm, hem, hmn⟩⟩, le_refl _⟩

/-- A season is in order when what follows by number is followed in the text order too, and what
comes first in the text order comes first by number. -/
theorem inOrder_of_firstText {N : ℕ → Prop} {e : ℕ}
    (hlater : ∀ n, N n → e < n → ∃ m, N m ∧ textRank e < textRank m)
    (hfirst : ∀ n, FirstText N e n → e < n ∧ ∀ m, N m → e < m → ¬ m < n) : InOrder N e := by
  refine ⟨fun he b hb hb100 => ⟨?_, ?_⟩, fun he a ha ha100 => ?_⟩
  · rintro ⟨a, ha, hea, ha100⟩
    by_cases hbe : b / 10 < e
    · exact Or.inl hbe
    · have hrank : textRank e < textRank b := by
        rw [textRank_of_lt he, textRank_of_le hb100]
        omega
      obtain ⟨n, hn, hnb⟩ := exists_firstText hb hrank
      obtain ⟨hen, hnone⟩ := hfirst n hn
      have hna := hnone a ha hea
      rw [textRank_of_lt (by omega), textRank_of_le hb100] at hnb
      exact Or.inr ⟨n, hn.mem, hen, by omega, by omega⟩
  · intro hhigh
    obtain ⟨m, hm, hem⟩ := hlater b hb (by omega)
    obtain ⟨n, hn, _⟩ := exists_firstText hm hem
    obtain ⟨hen, hnone⟩ := hfirst n hn
    have hnb := hnone b hb (by omega)
    have hn100 := hhigh n hn.mem hen
    have hlt := hn.lt
    rw [textRank_of_lt he, textRank_of_le hn100] at hlt
    omega
  · by_cases hae : a ≤ e / 10
    · exact Or.inl hae
    · have hrank : textRank e < textRank a := by
        rw [textRank_of_le he, textRank_of_lt ha100]
        omega
      obtain ⟨n, hn, hna⟩ := exists_firstText ha hrank
      obtain ⟨hen, _⟩ := hfirst n hn
      rw [textRank_of_le (by omega), textRank_of_lt ha100] at hna
      exact Or.inr ⟨n, hn.mem, hen, by omega⟩

/-! ## Across seasons -/

section Orders

variable {S : EpisodeKey → Prop} {c : EpisodeKey} {r : Option EpisodeKey}

/-- The first key in the text order within the season of `c`. -/
theorem firstText_of_textBefore {k : EpisodeKey} (hk : S k)
    (hfirst : ∀ l, S l → c.TextBefore l → ¬ l.TextBefore k) (hseason : c.season = k.season)
    (hlt : textRank c.number < textRank k.number) :
    FirstText (fun n => S ⟨c.season, n⟩) c.number k.number where
  mem := by
    obtain ⟨season, number⟩ := k
    obtain rfl : c.season = season := hseason
    exact hk
  lt := hlt
  first m hm hem hmk := hfirst ⟨c.season, m⟩ hm (Or.inr ⟨rfl, hem⟩) (Or.inr ⟨hseason, hmk⟩)

/-- The first key in the text order, in a season after that of `c`. -/
theorem firstText_of_season_lt {k : EpisodeKey} (hpos : ∀ l, S l → 1 ≤ l.number) (hk : S k)
    (hfirst : ∀ l, S l → c.TextBefore l → ¬ l.TextBefore k) (hseason : c.season < k.season) :
    FirstText (fun n => S ⟨k.season, n⟩) 0 k.number where
  mem := hk
  lt := by
    have hone := hpos k hk
    have hzero : textRank 0 = 0 := rfl
    rw [hzero]
    unfold textRank
    split <;> omega
  first m hm _ hmk := hfirst ⟨k.season, m⟩ hm (Or.inl hseason) (Or.inr ⟨rfl, hmk⟩)

/-- Where the orders agree, what comes first in the text order comes first. -/
theorem isFirstAfter_of_agrees (hpos : ∀ k, S k → 1 ≤ k.number)
    (h : IsFirstAfter EpisodeKey.TextBefore S c r) (hagrees : TextOrderAgrees S c) :
    IsFirstAfter EpisodeKey.Before S c r := by
  cases r with
  | none =>
    rintro ⟨season, number⟩ hk (hseason | ⟨hseason, hnumber⟩)
    · exact h _ hk (Or.inl hseason)
    · obtain rfl : c.season = season := hseason
      obtain ⟨m, hm, hem⟩ := exists_textRank_lt hagrees.1 hk hnumber
      exact h _ hm (Or.inr ⟨rfl, hem⟩)
  | some k =>
    obtain ⟨hk, hlt, hfirst⟩ := h
    rcases hlt with hseason | ⟨hseason, hnumber⟩
    · have hlast : ∀ n, S ⟨c.season, n⟩ → n ≤ c.number := by
        intro n hn
        by_contra hnot
        obtain ⟨m, hm, hem⟩ := exists_textRank_lt hagrees.1 hn (not_le.1 hnot)
        exact hfirst _ hm (Or.inr ⟨rfl, hem⟩) (Or.inl hseason)
      have hleast : ∀ l, S l → c.season < l.season → k.season ≤ l.season := by
        intro l hl hcl
        by_contra hnot
        exact hfirst l hl (Or.inl hcl) (Or.inl (not_le.1 hnot))
      have hbegin := firstText_of_season_lt hpos hk hfirst hseason
      refine ⟨hk, Or.inl hseason, ?_⟩
      rintro ⟨season, number⟩ hl (hcl | ⟨hcl, hnumber⟩) hlk
      · obtain rfl : season = k.season := by
          have hle := hleast _ hl hcl
          rcases hlk with hlk | ⟨hlk, _⟩
          · exact absurd hlk (not_lt.2 hle)
          · exact hlk
        have hlt : number < k.number := by
          rcases hlk with hlk | ⟨_, hlk⟩
          · exact absurd hlk (lt_irrefl _)
          · exact hlk
        exact hbegin.not_lt_of_inOrder (hagrees.2 hlast k hk hseason hleast) hl (hpos _ hl) hlt
      · obtain rfl : c.season = season := hcl
        exact absurd hnumber (not_lt.2 (hlast number hl))
    · have hwithin := firstText_of_textBefore hk hfirst hseason hnumber
      refine ⟨hk, Or.inr ⟨hseason, hwithin.lt_of_inOrder hagrees.1⟩, ?_⟩
      rintro ⟨season, number⟩ hl hcl hlk
      rcases hcl with hcl | ⟨hcl, hnumber⟩
      · rcases hlk with hlk | ⟨hlk, _⟩ <;> (dsimp only at hcl hlk; omega)
      · obtain rfl : c.season = season := hcl
        rcases hlk with hlk | ⟨_, hlk⟩
        · dsimp only at hlk
          omega
        · exact hwithin.not_lt_of_inOrder hagrees.1 hl hnumber hlk

/-- And only there. -/
theorem agrees_of_isFirstAfter (hpos : ∀ k, S k → 1 ≤ k.number)
    (h : IsFirstAfter EpisodeKey.TextBefore S c r) (hbefore : IsFirstAfter EpisodeKey.Before S c r) :
    TextOrderAgrees S c := by
  cases r with
  | none =>
    -- nothing follows in either order
    refine ⟨inOrder_of_firstText ?_ ?_, fun _ k hk hseason => absurd (Or.inl hseason) (h k hk)⟩
    · intro n hn hlt
      exact absurd (Or.inr ⟨rfl, hlt⟩) (hbefore ⟨c.season, n⟩ hn)
    · intro n hn
      exact absurd (Or.inr ⟨rfl, hn.lt⟩) (h ⟨c.season, n⟩ hn.mem)
  | some k =>
    obtain ⟨hk, hlt, hfirst⟩ := h
    obtain ⟨_, hck, hnone⟩ := hbefore
    refine ⟨inOrder_of_firstText ?_ ?_, ?_⟩
    · intro n hn hcn
      have hnot := hnone ⟨c.season, n⟩ hn (Or.inr ⟨rfl, hcn⟩)
      rcases hlt with hseason | ⟨hseason, hnumber⟩
      · exact absurd (Or.inl hseason) hnot
      · exact ⟨k.number, (firstText_of_textBefore hk hfirst hseason hnumber).mem, hnumber⟩
    · intro n hn
      -- the first number of the season is that of the first key
      have hnot := hfirst ⟨c.season, n⟩ hn.mem (Or.inr ⟨rfl, hn.lt⟩)
      rcases hlt with hseason | ⟨hseason, hnumber⟩
      · exact absurd (Or.inl hseason) hnot
      · have hwithin := firstText_of_textBefore hk hfirst hseason hnumber
        have hge := hn.first _ hwithin.mem hnumber
        have hle : ¬ textRank n < textRank k.number := fun hlt => hnot (Or.inr ⟨hseason, hlt⟩)
        obtain rfl : k.number = n := textRank_injective (by omega)
        refine ⟨?_, fun m hm hcm hmk => hnone ⟨c.season, m⟩ hm (Or.inr ⟨rfl, hcm⟩)
          (Or.inr ⟨hseason, hmk⟩)⟩
        rcases hck with hck | ⟨_, hck⟩
        · omega
        · exact hck
    · intro hlast l hl hseason hleast
      -- the first key is in that season, and is the first there
      have hkl : ¬ l.Before k := hnone l hl (Or.inl hseason)
      have hkseason : k.season = l.season := by
        rcases hck with hck | ⟨hck, hnumber⟩
        · have hle := hleast k hk hck
          by_contra hne
          exact hkl (Or.inl (by omega))
        · have hmem : S ⟨c.season, k.number⟩ := by
            obtain ⟨season, number⟩ := k
            obtain rfl : c.season = season := hck
            exact hk
          exact absurd hnumber (not_lt.2 (hlast _ hmem))
      have hbegin := firstText_of_season_lt hpos hk hfirst (hkseason ▸ hseason)
      rw [hkseason] at hbegin
      refine inOrder_of_firstText ?_ ?_
      · intro n hn hlt
        exact ⟨k.number, hbegin.mem, hbegin.lt⟩
      · intro n hn
        have hge := hn.first _ hbegin.mem hbegin.lt
        have hle := hbegin.first _ hn.mem hn.lt
        obtain rfl : k.number = n := textRank_injective (by omega)
        refine ⟨hpos k hk, fun m hm _ hmk => ?_⟩
        exact hnone ⟨l.season, m⟩ hm (Or.inl hseason) (Or.inr ⟨hkseason.symm, hmk⟩)

/-- What comes first after `c` in the text order comes first by number exactly where the orders
agree. -/
theorem isFirstAfter_iff (hpos : ∀ k, S k → 1 ≤ k.number)
    (h : IsFirstAfter EpisodeKey.TextBefore S c r) :
    IsFirstAfter EpisodeKey.Before S c r ↔ TextOrderAgrees S c :=
  ⟨agrees_of_isFirstAfter hpos h, isFirstAfter_of_agrees hpos h⟩

end Orders

end BlackPearl.Catalog
