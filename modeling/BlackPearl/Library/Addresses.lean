import BlackPearl.Library.ByteText
import BlackPearl.Library.Words

/-!
# Hosts and addresses

`net.SplitHostPort`, `net.ParseIP` and `IP.IsLoopback`. A text that is an address is made of hexadecimal
digits, dots and colons (`mem_of_parseIP`), so no domain name with another letter is one.
-/

set_option autoImplicit false

namespace BlackPearl.Library

/-! ## Hosts with ports -/

/-- Where the last `c` is. -/
def lastIndexOf (c : Char) (t : ByteText) : Option ℕ :=
  (t.reverse.findIdx? (· == .char c)).map fun k => t.length - 1 - k

/-- The host of `net.SplitHostPort`, or nothing where it returns an error. -/
def splitHost (hostport : ByteText) : Option ByteText :=
  match lastIndexOf ':' hostport with
  | none => none
  | some colon =>
      if hostport.head? = some (.char '[') then
        match hostport.findIdx? (· == .char ']') with
        | none => none
        | some close =>
            if close + 1 ≠ colon ∨ ByteText.containsChar (hostport.drop 1) '[' ∨
                ByteText.containsChar (hostport.drop (close + 1)) ']' then none
            else some ((hostport.take close).drop 1)
      else
        let host := hostport.take colon
        if ByteText.containsChar host ':' ∨ ByteText.containsChar hostport '[' ∨
            ByteText.containsChar hostport ']' then none
        else some host

/-! ## Addresses -/

/-- The value of a hexadecimal digit. -/
def hexDigit (c : Char) : Option ℕ :=
  if '0' ≤ c ∧ c ≤ '9' then some (c.toNat - '0'.toNat)
  else if 'a' ≤ c ∧ c ≤ 'f' then some (c.toNat - 'a'.toNat + 10)
  else if 'A' ≤ c ∧ c ≤ 'F' then some (c.toNat - 'A'.toNat + 10)
  else none

/-- A field of an IPv4 address: digits without a leading zero, at most 255. -/
def parseOctet (field : List Char) : Option ℕ :=
  if field = [] ∨ (field.all Char.isDigit) = false ∨ (field.head? = some '0' ∧ field.length ≠ 1) then none
  else
    let value := field.foldl (fun n c => n * 10 + (c.toNat - '0'.toNat)) 0
    if value ≤ 255 then some value else none

/-- The bytes of an IPv4 address. -/
def parseIPv4 (s : List Char) : Option (List ℕ) :=
  let fields := s.splitOnP (· == '.')
  if fields.length = 4 then fields.mapM parseOctet else none

/-- The loop of `parseIPv6`: at most `left` groups more, after the bytes `ip` and with the place of `::`,
if there was one. It gives what is left of the text, the bytes and that place. -/
def ipv6Groups : ℕ → List Char → List ℕ → Option ℕ → Option (List Char × List ℕ × Option ℕ)
  | 0, s, ip, ellipsis => some (s, ip, ellipsis)
  | left + 1, s, ip, ellipsis =>
      let digits := s.takeWhile fun c => (hexDigit c).isSome
      let value := digits.foldl (fun n c => n * 16 + (hexDigit c).getD 0) 0
      if digits = [] ∨ 4 < digits.length then none
      else
        match s.dropWhile fun c => (hexDigit c).isSome with
        | [] => some ([], ip ++ [value / 256, value % 256], ellipsis)
        | '.' :: _ =>
            if (ellipsis = none ∧ ip.length ≠ 12) ∨ 16 < ip.length + 4 then none
            else (parseIPv4 s).map fun octets => ([], ip ++ octets, ellipsis)
        | ':' :: ':' :: more =>
            if ellipsis.isSome then none
            else if more = [] then some ([], ip ++ [value / 256, value % 256], some (ip.length + 2))
            else ipv6Groups left more (ip ++ [value / 256, value % 256]) (some (ip.length + 2))
        | ':' :: c :: more => ipv6Groups left (c :: more) (ip ++ [value / 256, value % 256]) ellipsis
        | _ => none

/-- The bytes of an IPv6 address without a zone. -/
def parseIPv6 (s : List Char) : Option (List ℕ) :=
  match s with
  | [':', ':'] => some (List.replicate 16 0)
  | _ =>
      let found :=
        match s with
        | ':' :: ':' :: more => ipv6Groups 8 more [] (some 0)
        | _ => ipv6Groups 8 s [] none
      match found with
      | some ([], ip, ellipsis) =>
          match ellipsis with
          | none => if ip.length = 16 then some ip else none
          | some place =>
              if ip.length < 16 then
                some (ip.take place ++ List.replicate (16 - ip.length) 0 ++ ip.drop place)
              else none
      | _ => none

/-- `net.ParseIP`: the sixteen bytes. -/
def parseIP (s : List Char) : Option (List ℕ) :=
  match s.find? fun c => c == '.' || c == ':' || c == '%' with
  | some '.' => (parseIPv4 s).map fun octets => List.replicate 10 0 ++ [255, 255] ++ octets
  | some ':' => if '%' ∈ s then none else parseIPv6 s
  | _ => none

/-- `IP.IsLoopback`. -/
def isLoopback (ip : List ℕ) : Bool :=
  if ip.take 12 = List.replicate 10 0 ++ [255, 255] then ip[12]? == some 127
  else ip == List.replicate 15 0 ++ [1]

/-! ## The characters of an address -/

/-- A hexadecimal digit, a dot or a colon. -/
def AddressChar (c : Char) : Prop := (hexDigit c).isSome = true ∨ c = '.' ∨ c = ':'

theorem hexDigit_of_isDigit {c : Char} (h : c.isDigit = true) : (hexDigit c).isSome = true := by
  simp only [Char.isDigit, ge_iff_le, Bool.and_eq_true, decide_eq_true_eq] at h
  rw [hexDigit, if_pos]
  · rfl
  · exact h

theorem mem_of_parseOctet {field : List Char} {n : ℕ} (h : parseOctet field = some n) :
    ∀ c ∈ field, AddressChar c := by
  intro c hc
  unfold parseOctet at h
  split at h
  · cases h
  · next hfield =>
    simp only [not_or, Bool.not_eq_false, List.all_eq_true] at hfield
    exact Or.inl (hexDigit_of_isDigit (hfield.2.1 c hc))

/-- Every character of a text stands in one of its fields, or separates two of them. -/
theorem mem_splitOnP {isSep : Char → Bool} {s : List Char} {c : Char} (hc : c ∈ s) :
    isSep c = true ∨ ∃ field ∈ s.splitOnP isSep, c ∈ field := by
  induction s with
  | nil => cases hc
  | cons x s ih =>
    rw [List.splitOnP_cons_eq_if_modifyHead]
    cases hsplit : s.splitOnP isSep with
    | nil => exact absurd hsplit (List.splitOnP_ne_nil isSep s)
    | cons first rest =>
      rw [hsplit] at ih
      rcases List.mem_cons.1 hc with rfl | hc
      · by_cases hsep : isSep c = true
        · exact Or.inl hsep
        · rw [if_neg hsep]
          exact Or.inr ⟨c :: first, List.mem_cons_self, List.mem_cons_self⟩
      · rcases ih hc with hsep | ⟨field, hfield, hmem⟩
        · exact Or.inl hsep
        · right
          split
          · exact ⟨field, List.mem_cons_of_mem _ hfield, hmem⟩
          · rcases List.mem_cons.1 hfield with rfl | hfield
            · exact ⟨x :: field, List.mem_cons_self, List.mem_cons_of_mem _ hmem⟩
            · exact ⟨field, List.mem_cons_of_mem _ hfield, hmem⟩

theorem exists_of_mapM {α β : Type} {f : α → Option β} {l : List α} {r : List β} (h : l.mapM f = some r) :
    ∀ a ∈ l, ∃ b, f a = some b := by
  induction l generalizing r with
  | nil => exact fun a ha => absurd ha List.not_mem_nil
  | cons x l ih =>
    rw [List.mapM_cons, Option.bind_eq_bind, Option.bind_eq_some_iff] at h
    obtain ⟨b, hb, h⟩ := h
    rw [Option.bind_eq_bind, Option.bind_eq_some_iff] at h
    obtain ⟨bs, hbs, -⟩ := h
    intro a ha
    rcases List.mem_cons.1 ha with rfl | ha
    · exact ⟨b, hb⟩
    · exact ih hbs a ha

theorem mem_of_parseIPv4 {s : List Char} {ip : List ℕ} (h : parseIPv4 s = some ip) :
    ∀ c ∈ s, AddressChar c := by
  intro c hc
  simp only [parseIPv4] at h
  split at h
  · rcases @mem_splitOnP (fun c => c == '.') _ _ hc with hdot | ⟨field, hfield, hmem⟩
    · exact Or.inr (Or.inl (by simpa using hdot))
    · obtain ⟨n, hn⟩ := exists_of_mapM h field hfield
      exact mem_of_parseOctet hn c hmem
  · cases h

/-- What the loop has read consists of such characters. -/
theorem mem_of_ipv6Groups : ∀ (left : ℕ) {s rest : List Char} {ip ip' : List ℕ}
    {ellipsis ellipsis' : Option ℕ}, ipv6Groups left s ip ellipsis = some (rest, ip', ellipsis') →
    rest = [] → ∀ c ∈ s, AddressChar c := by
  intro left
  induction left with
  | zero =>
    intro s rest ip ip' ellipsis ellipsis' h hrest c hc
    simp only [ipv6Groups, Option.some.injEq, Prod.mk.injEq] at h
    rw [h.1, hrest] at hc
    cases hc
  | succ left ih =>
    intro s rest ip ip' ellipsis ellipsis' h hrest c hc
    have hdigits : ∀ d ∈ s.takeWhile fun c => (hexDigit c).isSome, AddressChar d := by
      intro d hd
      exact Or.inl (List.mem_takeWhile_imp (p := fun c => (hexDigit c).isSome) hd)
    have hchar : (∀ d ∈ s.dropWhile fun c => (hexDigit c).isSome, AddressChar d) → AddressChar c := by
      intro hrest
      rw [← List.takeWhile_append_dropWhile (p := fun c => (hexDigit c).isSome) (l := s)] at hc
      rcases List.mem_append.1 hc with hc | hc
      · exact hdigits c hc
      · exact hrest c hc
    have hcolon : AddressChar ':' := Or.inr (Or.inr rfl)
    simp only [ipv6Groups] at h
    split at h
    · cases h
    split at h
    · next hnil =>
      apply hchar
      rw [hnil]
      exact fun d hd => absurd hd List.not_mem_nil
    · split at h
      · cases h
      · rw [Option.map_eq_some_iff] at h
        obtain ⟨octets, hoctets, -⟩ := h
        exact mem_of_parseIPv4 hoctets c hc
    · next more hmore =>
      split at h
      · cases h
      · split at h
        · next hempty =>
          apply hchar
          rw [hmore, hempty]
          intro d hd
          simp only [List.mem_cons, List.not_mem_nil, or_false, or_self] at hd
          exact hd ▸ hcolon
        · apply hchar
          rw [hmore]
          intro d hd
          rcases List.mem_cons.1 hd with rfl | hd
          · exact hcolon
          rcases List.mem_cons.1 hd with rfl | hd
          · exact hcolon
          · exact ih h hrest d hd
    · next c' more _ hmore =>
      apply hchar
      rw [hmore]
      intro d hd
      rcases List.mem_cons.1 hd with rfl | hd
      · exact hcolon
      · exact ih h hrest d hd
    · cases h

theorem mem_of_parseIPv6 {s : List Char} {ip : List ℕ} (h : parseIPv6 s = some ip) :
    ∀ c ∈ s, AddressChar c := by
  have hcolon : AddressChar ':' := Or.inr (Or.inr rfl)
  unfold parseIPv6 at h
  split at h
  · intro c hc
    simp only [List.mem_cons, List.not_mem_nil, or_false, or_self] at hc
    exact hc ▸ hcolon
  · dsimp only at h
    split at h
    · next hfound =>
      split at hfound
      · next more _ =>
        intro c hc
        rcases List.mem_cons.1 hc with rfl | hc
        · exact hcolon
        rcases List.mem_cons.1 hc with rfl | hc
        · exact hcolon
        · exact mem_of_ipv6Groups _ hfound rfl c hc
      · exact mem_of_ipv6Groups _ hfound rfl
    · cases h

/-- What is an address consists of hexadecimal digits, dots and colons. -/
theorem mem_of_parseIP {s : List Char} {ip : List ℕ} (h : parseIP s = some ip) :
    ∀ c ∈ s, AddressChar c := by
  unfold parseIP at h
  split at h
  · rw [Option.map_eq_some_iff] at h
    obtain ⟨octets, hoctets, -⟩ := h
    exact mem_of_parseIPv4 hoctets
  · split at h
    · cases h
    · exact mem_of_parseIPv6 h
  · cases h

example : (parseIP "127.0.0.1".toList).map isLoopback = some true := by decide +kernel
example : (parseIP "::1".toList).map isLoopback = some true := by decide +kernel
example : (parseIP "::ffff:127.1.2.3".toList).map isLoopback = some true := by decide +kernel
example : (parseIP "127.0.0.01".toList).map isLoopback = none := by decide +kernel
example : splitHost (text "[::1]:8080") = some (text "::1") := by decide +kernel

end BlackPearl.Library
