import BlackPearl.Acquisition.Material

/-!
# What the torrent parser accepts

A torrent file is a dictionary with one dictionary `info`, whose numerals are canonical and which
nests at most 64 deep. The parser accepts the files whose numerals are what `skipInteger` admits and
whose strings are shorter than 2³¹ bytes (`rawTorrentInfoHash_spec`). It misses a numeral with one zero
in front of other digits, since it looks for two of them.
-/

set_option autoImplicit false

namespace BlackPearl.Acquisition

open BlackPearl.Library BlackPearl.Library.Bencode

/-- The value of `info` is a dictionary and is the only one, written as `info`. -/
def InfoOf (members : List (Bytes × Bencode)) (info : Bytes) : Prop :=
  ∃ entries, members.filter (fun m => m.1 = literal "info") =
    [(literal "info", .dictionary entries)] ∧ info = render (.dictionary entries)

/-- The payload is the notation of a dictionary with one dictionary `info`, nested at most as deep as
the parser goes, with numerals and lengths of strings of the given kinds. -/
def IsTorrent (numeral : Bytes → Prop) (length : ℕ → Prop) (payload info : Bytes) : Prop :=
  ∃ members, payload = render (.dictionary members) ∧
    AdmittedMembers numeral length maximumBencodeDepth members ∧ InfoOf members info

/-- Zero, or an optional sign and digits that do not start with zero. -/
def CanonicalNumeral (w : Bytes) : Prop :=
  w = literal "0" ∨ ∃ sign first digits, w = sign ++ first :: digits ∧
    (sign = [] ∨ sign = literal "-") ∧ isDigitByte first = true ∧ first ≠ ascii '0' ∧
    ∀ d ∈ digits, isDigitByte d = true

def AnyLength (_ : ℕ) : Prop := True

def AnyNumeral (_ : Bytes) : Prop := True

/-- The lowercase hexadecimal of a digest. -/
def hexDigest (sha1 : Bytes → Bytes) (info : Bytes) : String :=
  String.ofList (encodeHex ((sha1 info).map UInt8.toNat))

/-! ## The value of `info` -/

theorem headD_render_eq_iff {value : Bencode} :
    (render value).headD 0 = ascii 'd' ↔ ∃ entries, value = .dictionary entries := by
  constructor
  · intro h
    cases value with
    | dictionary entries => exact ⟨entries, rfl⟩
    | integer written =>
      have hhead : ascii 'i' = ascii 'd' := h
      exact absurd hhead (by decide)
    | list items =>
      have hhead : ascii 'l' = ascii 'd' := h
      exact absurd hhead (by decide)
    | string content =>
      obtain ⟨b, rest, hb, hdigit⟩ := exists_renderString content
      have hhead : (renderString content).headD 0 = ascii 'd' := h
      rw [hb] at hhead
      have hb' : b = ascii 'd' := hhead
      rw [hb'] at hdigit
      exact absurd hdigit (by decide)
  · rintro ⟨entries, rfl⟩
    rfl

/-- After a value of `info` there is no other. -/
theorem collectInfo_some {members : List (Bytes × Bencode)} {info : Bytes} {found : Option Bytes} :
    collectInfo (some info) members = some found ↔
      found = some info ∧ members.filter (fun m => m.1 = literal "info") = [] := by
  induction members with
  | nil => simp [collectInfo, eq_comm]
  | cons m members ih =>
    obtain ⟨key, value⟩ := m
    by_cases hkey : key = literal "info"
    · rw [collectInfo, if_pos hkey, if_pos (Or.inl Option.isSome_some),
        List.filter_cons_of_pos (by simpa using hkey)]
      simp
    · rw [collectInfo, if_neg hkey, ih, List.filter_cons_of_neg (by simpa using hkey)]

theorem collectInfo_none {members : List (Bytes × Bencode)} {info : Bytes} :
    collectInfo none members = some (some info) ↔ InfoOf members info := by
  induction members with
  | nil => simp [collectInfo, InfoOf]
  | cons m members ih =>
    obtain ⟨key, value⟩ := m
    by_cases hkey : key = literal "info"
    · rw [collectInfo, if_pos hkey, InfoOf, List.filter_cons_of_pos (by simpa using hkey)]
      constructor
      · intro h
        split at h
        · cases h
        · rename_i hdictionary
          rw [not_or, not_not, headD_render_eq_iff] at hdictionary
          obtain ⟨-, entries, rfl⟩ := hdictionary
          obtain ⟨hinfo, hrest⟩ := collectInfo_some.1 h
          exact ⟨entries, by rw [hrest, hkey], Option.some.inj hinfo⟩
      · rintro ⟨entries, hfilter, rfl⟩
        obtain ⟨hmember, hrest⟩ := List.cons.inj hfilter
        obtain rfl := (Prod.mk.inj hmember).2
        rw [if_neg, collectInfo_some]
        · exact ⟨rfl, hrest⟩
        · rw [not_or, not_not]
          exact ⟨by simp, rfl⟩
    · rw [collectInfo, if_neg hkey, ih, InfoOf, InfoOf,
        List.filter_cons_of_neg (by simpa using hkey)]

/-! ## The whole file -/

section File

variable {sha1 : Bytes → Bytes} {payload : Bytes}

/-- Where the loop stops, the members of a dictionary are those that it has read. -/
theorem members_unique {n : ℕ} {members members' : List (Bytes × Bencode)} {tail : Bytes}
    (hadmitted : AdmittedMembers AdmittedNumeral ShortLength n members)
    (hadmitted' : AdmittedMembers AdmittedNumeral ShortLength n members')
    (hstop : tail = [] ∨ tail.headD 0 = ascii 'e')
    (h : renderMembers members ++ tail = renderMembers members' ++ [ascii 'e']) :
    members' = members ∧ tail = [ascii 'e'] := by
  cases tail with
  | nil =>
    have hlonger : renderMembers members ++ ascii 'e' :: [] =
        renderMembers members' ++ ascii 'e' :: [ascii 'e'] := by
      rw [List.append_nil] at h
      rw [h, List.append_assoc]
      rfl
    have hempty := (renderMembers_append_inj terminated_admittedNumeral terminated_admittedNumeral
      hadmitted hadmitted' hlonger).2
    cases hempty
  | cons b rest =>
    have hb : b = ascii 'e' := by
      rcases hstop with hstop | hstop
      · cases hstop
      · exact hstop
    subst hb
    obtain ⟨hmembers, hrest⟩ := renderMembers_append_inj terminated_admittedNumeral
      terminated_admittedNumeral hadmitted hadmitted' h
    exact ⟨hmembers.symm, by rw [hrest]⟩

/-- The parser accepts a torrent and hashes its `info`, or refuses what is none. -/
theorem rawTorrentInfoHash_spec (sha1 : Bytes → Bytes) (payload : Bytes) :
    (∃ info, IsTorrent AdmittedNumeral ShortLength payload info ∧
      rawTorrentInfoHash sha1 payload = .ok (hexDigest sha1 info)) ∨
    ∃ m, rawTorrentInfoHash sha1 payload = .error (.refused m) ∧
      ∀ info, ¬ IsTorrent AdmittedNumeral ShortLength payload info := by
  rw [rawTorrentInfoHash, consume_eq, ok_bind, List.drop_zero]
  cases payload with
  | nil =>
    refine Or.inr ⟨_, rfl, ?_⟩
    rintro info ⟨members, hpayload, -⟩
    exact absurd hpayload (by simp [render])
  | cons first body =>
    by_cases hd : first = ascii 'd'
    · have hsame : (first :: body).headD 0 = ascii 'd' := hd
      have hdrop : (first :: body).drop (0 + 1) = body := rfl
      have hread : MembersRead (first :: body) none (0 + 1)
          (readMembers (first :: body) ((first :: body).length + 1) none (0 + 1)) :=
        readMembers_spec (by simp) (by rw [hdrop, List.length_cons]; omega)
      rw [if_pos hsame]
      show (∃ info, _ ∧ (readMembers (first :: body) ((first :: body).length + 1) none (0 + 1) >>= _) =
        _) ∨ ∃ m, (readMembers (first :: body) ((first :: body).length + 1) none (0 + 1) >>= _) = _ ∧ _
      generalize readMembers (first :: body) ((first :: body).length + 1) none (0 + 1) = r at hread
      -- a torrent consists of the first byte and of members with their end
      have hbody : ∀ members, first :: body = render (.dictionary members) ↔
          body = renderMembers members ++ [ascii 'e'] := by
        intro members
        rw [render, hd, List.cons.injEq, eq_self, true_and]
      cases hread with
      | @refused m hnone =>
        refine Or.inr ⟨_, rfl, ?_⟩
        rintro info ⟨members, hpayload, hadmitted, hinfo⟩
        have hfound := hnone members hadmitted (by
          rw [hdrop, (hbody members).1 hpayload])
        rw [collectInfo_none.2 hinfo] at hfound
        cases hfound
      | @found members found hadmitted hmembers hcollect hstop =>
        rw [hdrop] at hmembers
        obtain ⟨tail, htail⟩ := hmembers
        have hafter : (first :: body).drop (0 + 1 + (renderMembers members).length) = tail := by
          rw [← List.drop_drop, hdrop, ← htail, List.drop_left]
        simp only [ok_bind, consume_eq, hafter]
        have hstopped : tail = [] ∨ tail.headD 0 = ascii 'e' := by
          rwa [atEnd_iff, hafter] at hstop
        have hunique := fun members'
            (hadmitted' : AdmittedMembers AdmittedNumeral ShortLength _ members')
            (h : body = renderMembers members' ++ [ascii 'e']) =>
          members_unique hadmitted hadmitted' hstopped (htail.trans h)
        by_cases htail' : tail = [ascii 'e']
        · have hhead : tail.headD 0 = ascii 'e' := by
            rw [htail']
            rfl
          have hend : atEnd (first :: body) (0 + 1 + (renderMembers members).length + 1) = true := by
            rw [atEnd_iff, ← List.drop_drop, hafter, htail']
            rfl
          have hpayload : first :: body = render (.dictionary members) := by
            rw [hbody, ← htail, htail']
          simp only [if_pos hhead, hend]
          by_cases hfound : ∃ info, found = some info ∧ info ≠ []
          · obtain ⟨info, rfl, hne⟩ := hfound
            obtain ⟨b, rest, rfl⟩ := List.exists_cons_of_ne_nil hne
            exact Or.inl ⟨b :: rest, ⟨members, hpayload, hadmitted, collectInfo_none.1 hcollect⟩, rfl⟩
          · refine Or.inr ⟨"torrent payload is missing its info dictionary", ?_, ?_⟩
            · rcases found with - | - | ⟨b, rest⟩
              · rfl
              · rfl
              · exact absurd ⟨b :: rest, rfl, List.cons_ne_nil _ _⟩ hfound
            · rintro info ⟨members', hpayload', hadmitted', hinfo⟩
              obtain rfl := (hunique members' hadmitted' ((hbody _).1 hpayload')).1
              rw [collectInfo_none.2 hinfo] at hcollect
              obtain rfl := Option.some.inj hcollect
              obtain ⟨entries, -, rfl⟩ := hinfo
              exact hfound ⟨_, rfl, List.cons_ne_nil _ _⟩
        · refine Or.inr ⟨"torrent payload has an unterminated dictionary or trailing data", ?_, ?_⟩
          · rcases hstopped with rfl | hhead
            · rfl
            · have hend : ¬ atEnd (first :: body) (0 + 1 + (renderMembers members).length + 1) =
                  true := by
                rw [atEnd_iff, ← List.drop_drop, hafter]
                intro hnil
                apply htail'
                cases tail with
                | nil => exact absurd hhead (by decide)
                | cons b rest =>
                  have hb : b = ascii 'e' := hhead
                  have hrest : rest = [] := hnil
                  rw [hb, hrest]
              rw [Bool.not_eq_true] at hend
              simp only [if_pos hhead, hend]
              rfl
          · rintro info ⟨members', hpayload', hadmitted', -⟩
            exact htail' (hunique members' hadmitted' ((hbody _).1 hpayload')).2
    · have hother : ¬ (first :: body).headD 0 = ascii 'd' := hd
      rw [if_neg hother]
      refine Or.inr ⟨_, rfl, ?_⟩
      rintro info ⟨members, hpayload, -⟩
      rw [render, List.cons.injEq] at hpayload
      exact absurd hpayload.1 hd

/-- A payload is the notation of one dictionary only, and has one value of `info`. -/
theorem members_eq {length length' : ℕ → Prop} {members members' : List (Bytes × Bencode)}
    (hm : AdmittedMembers AdmittedNumeral length maximumBencodeDepth members)
    (hm' : AdmittedMembers AdmittedNumeral length' maximumBencodeDepth members')
    (h : render (.dictionary members) = render (.dictionary members')) : members = members' := by
  rw [render, render, List.cons.injEq] at h
  exact (renderMembers_append_inj terminated_admittedNumeral terminated_admittedNumeral hm hm' h.2).1

theorem InfoOf.unique {members : List (Bytes × Bencode)} {info info' : Bytes}
    (h : InfoOf members info) (h' : InfoOf members info') : info = info' := by
  obtain ⟨entries, hfilter, rfl⟩ := h
  obtain ⟨entries', hfilter', rfl⟩ := h'
  rw [hfilter, List.cons.injEq, Prod.mk.injEq] at hfilter'
  rw [hfilter'.1.2]

/-- A canonical numeral is one that `skipInteger` admits. -/
theorem CanonicalNumeral.admitted {w : Bytes} (h : CanonicalNumeral w) : AdmittedNumeral w := by
  rcases h with rfl | ⟨sign, first, digits, rfl, hsign, hdigit, hfirst, hdigits⟩
  · have hdigits : (literal "0").all isDigitByte = true := by decide
    exact ⟨⟨[], literal "0", rfl, Or.inl rfl, by decide, List.all_eq_true.1 hdigits⟩, by decide⟩
  · have hfirst' : ascii '0' ≠ first := fun h => hfirst h.symm
    refine ⟨⟨sign, first :: digits, rfl, hsign, List.cons_ne_nil _ _, ?_⟩, ?_⟩
    · rintro d (_ | ⟨_, hd⟩)
      · exact hdigit
      · exact hdigits d hd
    · have hminus : first ≠ ascii '-' := by
        rintro rfl
        exact absurd hdigit (by decide)
      have hzero : literal "00" = [ascii '0', ascii '0'] := rfl
      have hnegative : literal "-0" = [ascii '-', ascii '0'] := rfl
      rcases hsign with rfl | rfl
      · simp [nonCanonical, hzero, hnegative, List.isPrefixOf_cons_cons, hfirst', hminus, Ne.symm hminus]
      · have hsign : literal "-" = [ascii '-'] := rfl
        have hother : ascii '0' ≠ ascii '-' := by decide
        simp [nonCanonical, hzero, hnegative, hsign, List.isPrefixOf_cons_cons, hfirst, hfirst', hother]

/-- The parser comes to an end within the payload, accepts exactly the torrents with canonical
numerals, and hashes their `info`. -/
structure ParsesTorrents (sha1 : Bytes → Bytes) (payload : Bytes) : Prop where
  ends : rawTorrentInfoHash sha1 payload ≠ .error .unfinished
  within : rawTorrentInfoHash sha1 payload ≠ .error .outOfBounds
  sound : ∀ hash, rawTorrentInfoHash sha1 payload = .ok hash →
    ∃ info, IsTorrent CanonicalNumeral AnyLength payload info ∧ hash = hexDigest sha1 info
  complete : ∀ info, IsTorrent CanonicalNumeral AnyLength payload info →
    rawTorrentInfoHash sha1 payload = .ok (hexDigest sha1 info)

/-- If the payload is a torrent up to its numerals, they are canonical exactly if its strings are short
enough. Torrents from the network are far below the bound for strings, so this says that they have no
numeral with one zero in front of other digits. -/
def Regular (payload : Bytes) : Prop :=
  ∀ members info, payload = render (.dictionary members) → InfoOf members info →
    AdmittedMembers AdmittedNumeral AnyLength maximumBencodeDepth members →
    (AdmittedMembers CanonicalNumeral AnyLength maximumBencodeDepth members ↔
      AdmittedMembers AnyNumeral ShortLength maximumBencodeDepth members)

theorem admittedMembers_iff {numeral : Bytes → Prop} {length : ℕ → Prop} {n : ℕ}
    {members : List (Bytes × Bencode)} : AdmittedMembers numeral length n members ↔
      AdmittedMembers numeral AnyLength n members ∧ AdmittedMembers AnyNumeral length n members := by
  constructor
  · intro h
    exact ⟨h.mono (fun _ => id) (fun _ _ => trivial), h.mono (fun _ _ => trivial) (fun _ => id)⟩
  · rintro ⟨h, h'⟩
    exact (h.and h').mono (fun _ h => h.1) (fun _ h => h.2)

theorem parsesTorrents_iff (sha1 : Bytes → Bytes) (payload : Bytes) :
    ParsesTorrents sha1 payload ↔ Regular payload := by
  have hspec := rawTorrentInfoHash_spec sha1 payload
  constructor
  · intro hparses members info hpayload hinfo hlenient
    constructor
    · intro hcanonical
      have hok := hparses.complete info ⟨members, hpayload, hcanonical, hinfo⟩
      rcases hspec with ⟨_, ⟨members', hpayload', hadmitted, -⟩, -⟩ | ⟨m, hrefused, -⟩
      · obtain rfl := members_eq hlenient hadmitted (hpayload.symm.trans hpayload')
        exact (admittedMembers_iff.1 hadmitted).2
      · rw [hrefused] at hok
        cases hok
    · intro hshort
      have hadmitted := admittedMembers_iff.2 ⟨hlenient, hshort⟩
      rcases hspec with ⟨_, -, hok⟩ | ⟨_, -, hnone⟩
      · obtain ⟨_, ⟨members', hpayload', hcanonical, -⟩, -⟩ := hparses.sound _ hok
        have hlenient' := hcanonical.mono (fun _ => CanonicalNumeral.admitted) (fun _ => id)
        obtain rfl := members_eq hlenient hlenient' (hpayload.symm.trans hpayload')
        exact hcanonical
      · exact absurd ⟨members, hpayload, hadmitted, hinfo⟩ (hnone info)
  · intro hregular
    have hsound : ∀ hash, rawTorrentInfoHash sha1 payload = .ok hash →
        ∃ info, IsTorrent CanonicalNumeral AnyLength payload info ∧ hash = hexDigest sha1 info := by
      intro hash hhash
      rcases hspec with ⟨info, ⟨members, hpayload, hadmitted, hinfo⟩, hok⟩ | ⟨m, hrefused, -⟩
      · obtain ⟨hlenient, hshort⟩ := admittedMembers_iff.1 hadmitted
        have hcanonical := (hregular members info hpayload hinfo hlenient).2 hshort
        rw [hok] at hhash
        exact ⟨info, ⟨members, hpayload, hcanonical, hinfo⟩, (Except.ok.inj hhash).symm⟩
      · rw [hrefused] at hhash
        cases hhash
    have hcomplete : ∀ info, IsTorrent CanonicalNumeral AnyLength payload info →
        rawTorrentInfoHash sha1 payload = .ok (hexDigest sha1 info) := by
      rintro info ⟨members, hpayload, hcanonical, hinfo⟩
      have hlenient := hcanonical.mono (fun _ => CanonicalNumeral.admitted) (fun _ => id)
      have hshort := (hregular members info hpayload hinfo hlenient).1 hcanonical
      rcases hspec with ⟨info', ⟨members', hpayload', hadmitted, hinfo'⟩, hok⟩ | ⟨_, -, hnone⟩
      · obtain rfl := members_eq hlenient hadmitted (hpayload.symm.trans hpayload')
        rw [hok, hinfo'.unique hinfo]
      · exact absurd ⟨members, hpayload, admittedMembers_iff.2 ⟨hlenient, hshort⟩, hinfo⟩ (hnone info)
    refine ⟨?_, ?_, hsound, hcomplete⟩
    · rcases hspec with ⟨_, -, hok⟩ | ⟨_, hrefused, -⟩
      · rw [hok]
        nofun
      · rw [hrefused]
        nofun
    · rcases hspec with ⟨_, -, hok⟩ | ⟨_, hrefused, -⟩
      · rw [hok]
        nofun
      · rw [hrefused]
        nofun

end File

/-- The integer 01 is accepted. -/
theorem parsesTorrents_fails : ¬ ParsesTorrents id (literal "d4:infod1:ai01eee") := by
  intro hparses
  have hok : rawTorrentInfoHash id (literal "d4:infod1:ai01eee") = .ok "64313a616930316565" := by
    decide +kernel
  obtain ⟨info, ⟨members, hpayload, hcanonical, -⟩, -⟩ := hparses.sound _ hok
  have hlenient := hcanonical.mono (fun _ => CanonicalNumeral.admitted) (fun _ => id)
  have hform : AdmittedNumeral (literal "01") :=
    have hdigits : (literal "01").all isDigitByte = true := by decide
    ⟨⟨[], literal "01", rfl, Or.inl rfl, by decide, List.all_eq_true.1 hdigits⟩, by decide⟩
  have hwritten : AdmittedMembers AdmittedNumeral AnyLength maximumBencodeDepth
      [(literal "info", .dictionary [(literal "a", .integer (literal "01"))])] :=
    ⟨trivial, ⟨trivial, hform, trivial⟩, trivial⟩
  have hsame : literal "d4:infod1:ai01eee" =
      render (.dictionary [(literal "info", .dictionary [(literal "a", .integer (literal "01"))])]) :=
    by decide
  obtain rfl := members_eq hwritten hlenient (hsame.symm.trans hpayload)
  obtain ⟨-, ⟨-, hnumeral, -⟩, -⟩ := hcanonical
  rcases hnumeral with h | ⟨sign, first, digits, h, rfl | rfl, -, hfirst, -⟩
  · exact absurd h (by decide)
  · exact hfirst (List.cons.inj h).1.symm
  · exact absurd (List.cons.inj h).1 (by decide)

end BlackPearl.Acquisition
