import BlackPearl.Library.Json
import BlackPearl.Setup.Manifest

/-!
# The saved form of a setup

The struct tags of `SetupConfiguration` and `SetupManifest` under `encoding/json`: what is written,
and what reading a file makes of it. Reading what was written repairs the texts
(`unmarshalManifest_marshal`), so it gives the value back exactly if they are valid UTF-8.
-/

set_option autoImplicit false

namespace BlackPearl.Setup

open BlackPearl.Library

/-! ## Writing -/

/-- A member that is left out when its text is empty. -/
def omitEmptyText (key : String) (t : ByteText) : List (ByteText × Json) :=
  if t = [] then [] else [(text key, .string t)]

/-- A member that is left out when its number is zero. -/
def omitEmptyNumber (key : String) (n : Int64) : List (ByteText × Json) :=
  if n = 0 then [] else [(text key, .int n.toInt)]

/-- The members of a configuration in the order of its fields. -/
def encodeConfiguration (c : SetupConfiguration) : Json :=
  .object (omitEmptyText "provider" c.provider ++
    [(text "objectId", .string c.objectID), (text "name", .string c.name),
      (text "extension", .string c.extension), (text "size", .int c.size.toInt),
      (text "mediaType", .string c.mediaType), (text "title", .string c.title),
      (text "year", .int c.year.toInt)] ++
    omitEmptyText "showTitle" c.showTitle ++ omitEmptyNumber "season" c.season ++
    omitEmptyNumber "episode" c.episode)

def encodeManifest (m : SetupManifest) : Json :=
  .object [(text "items", .array (m.items.map encodeConfiguration))]

/-- `json.Marshal` of a value, and the line break that the repository appends. -/
def marshalLine (v : Json) : ByteText := (v.render ++ ['\n']).map .char

/-! ## Reading -/

/-- A letter as keys are compared: capital letters, and the two other characters that fold to one. -/
def foldCharacter (c : Char) : Char :=
  if c = '\u017F' then 'S' else if c = '\u212A' then 'K' else c.toUpper

/-- A key as it is compared. -/
def foldKey (key : ByteText) : ByteText :=
  key.map fun
    | .char c => .char (foldCharacter c)
    | .stray b => .stray b

/-- Whether a key names the field with the given tag. -/
def names (tag : String) (key : ByteText) : Bool := foldKey key = foldKey (text tag)

/-- A text field; `null` leaves it as it was. -/
def decodeText (old : ByteText) : Json → Option ByteText
  | .string t => some t
  | .null => some old
  | _ => none

/-- An integer field of 64 bits. -/
def decodeNumber (old : Int64) : Json → Option Int64
  | .number literal => do
      let n ← parseDecimal literal.val
      if -(2 ^ 63) ≤ n ∧ n < 2 ^ 63 then return Int64.ofInt n else none
  | .null => some old
  | _ => none

/-- Set the field that a member names; members of other names are ignored. -/
def setField (c : SetupConfiguration) (member : ByteText × Json) : Option SetupConfiguration :=
  let (key, v) := member
  if names "provider" key then (decodeText c.provider v).map fun t => { c with provider := t }
  else if names "objectId" key then (decodeText c.objectID v).map fun t => { c with objectID := t }
  else if names "name" key then (decodeText c.name v).map fun t => { c with name := t }
  else if names "extension" key then
    (decodeText c.extension v).map fun t => { c with extension := t }
  else if names "size" key then (decodeNumber c.size v).map fun n => { c with size := n }
  else if names "mediaType" key then
    (decodeText c.mediaType v).map fun t => { c with mediaType := t }
  else if names "title" key then (decodeText c.title v).map fun t => { c with title := t }
  else if names "year" key then (decodeNumber c.year v).map fun n => { c with year := n }
  else if names "showTitle" key then
    (decodeText c.showTitle v).map fun t => { c with showTitle := t }
  else if names "season" key then (decodeNumber c.season v).map fun n => { c with season := n }
  else if names "episode" key then (decodeNumber c.episode v).map fun n => { c with episode := n }
  else some c

def decodeConfiguration : Json → Option SetupConfiguration
  | .object members => members.foldlM setField {}
  | .null => some {}
  | _ => none

/-- The items that the members of a manifest give. -/
def setItems (items : List SetupConfiguration) (member : ByteText × Json) :
    Option (List SetupConfiguration) :=
  if names "items" member.1 then
    match member.2 with
    | .array elements => elements.mapM decodeConfiguration
    | .null => some []
    | _ => none
  else some items

def decodeManifest : Json → Option SetupManifest
  | .object members => (members.foldlM setItems []).map SetupManifest.mk
  | .null => some ⟨[]⟩
  | _ => none

/-- `json.Unmarshal` into a `SetupConfiguration`. -/
def unmarshalConfiguration (content : ByteText) : Option SetupConfiguration :=
  (Json.parse content).bind decodeConfiguration

/-- `json.Unmarshal` into a `SetupManifest`. -/
def unmarshalManifest (content : ByteText) : Option SetupManifest :=
  (Json.parse content).bind decodeManifest

/-! ## Reading what was written -/

/-- An item with its texts repaired. -/
def SetupConfiguration.repair (c : SetupConfiguration) : SetupConfiguration :=
  { c with
    provider := ByteText.repair c.provider
    objectID := ByteText.repair c.objectID
    name := ByteText.repair c.name
    extension := ByteText.repair c.extension
    mediaType := ByteText.repair c.mediaType
    title := ByteText.repair c.title
    showTitle := ByteText.repair c.showTitle }

/-- A manifest with its texts repaired. -/
def SetupManifest.repair (m : SetupManifest) : SetupManifest := ⟨m.items.map SetupConfiguration.repair⟩

theorem decodeNumber_int (old n : Int64) : decodeNumber old (Json.int n.toInt) = some n := by
  have hlow := Int64.le_toInt n
  have hhigh := Int64.toInt_lt n
  simp only [Json.int, decodeNumber, parseDecimal_decimal, Option.bind_eq_bind, Option.bind_some,
    Option.pure_def, Int64.ofInt_toInt]
  exact if_pos ⟨hlow, hhigh⟩

/-- A member that was left out leaves the empty text in its field. -/
theorem foldlM_omitEmptyText {key : String} {t : ByteText} {c : SetupConfiguration}
    {d : SetupConfiguration} (hset : setField c (text key, .string t) = some d)
    (hempty : t = [] → c = d) : (omitEmptyText key t).foldlM setField c = some d := by
  unfold omitEmptyText
  split
  · next ht => rw [List.foldlM_nil, hempty ht, Option.pure_def]
  · rw [List.foldlM_cons, hset, Option.bind_eq_bind, Option.bind_some, List.foldlM_nil,
      Option.pure_def]

theorem foldlM_omitEmptyNumber {key : String} {n : Int64} {c : SetupConfiguration}
    {d : SetupConfiguration} (hset : setField c (text key, .int n.toInt) = some d)
    (hzero : n = 0 → c = d) : (omitEmptyNumber key n).foldlM setField c = some d := by
  unfold omitEmptyNumber
  split
  · next hn => rw [List.foldlM_nil, hzero hn, Option.pure_def]
  · rw [List.foldlM_cons, hset, Option.bind_eq_bind, Option.bind_some, List.foldlM_nil,
      Option.pure_def]

section Fields

variable (c : SetupConfiguration) (t : ByteText) (n : Int64)

theorem setField_provider :
    setField c (text "provider", .string t) = some { c with provider := t } := rfl

theorem setField_objectID :
    setField c (text "objectId", .string t) = some { c with objectID := t } := rfl

theorem setField_name : setField c (text "name", .string t) = some { c with name := t } := rfl

theorem setField_extension :
    setField c (text "extension", .string t) = some { c with extension := t } := rfl

theorem setField_mediaType :
    setField c (text "mediaType", .string t) = some { c with mediaType := t } := rfl

theorem setField_title : setField c (text "title", .string t) = some { c with title := t } := rfl

theorem setField_showTitle :
    setField c (text "showTitle", .string t) = some { c with showTitle := t } := rfl

theorem setField_size : setField c (text "size", .int n.toInt) = some { c with size := n } :=
  congrArg (Option.map _) (decodeNumber_int c.size n)

theorem setField_year : setField c (text "year", .int n.toInt) = some { c with year := n } :=
  congrArg (Option.map _) (decodeNumber_int c.year n)

theorem setField_season : setField c (text "season", .int n.toInt) = some { c with season := n } :=
  congrArg (Option.map _) (decodeNumber_int c.season n)

theorem setField_episode :
    setField c (text "episode", .int n.toInt) = some { c with episode := n } :=
  congrArg (Option.map _) (decodeNumber_int c.episode n)

end Fields

/-- Decoding what was encoded gives the item back. -/
theorem decodeConfiguration_encode (c : SetupConfiguration) :
    decodeConfiguration (encodeConfiguration c) = some c := by
  obtain ⟨provider, objectID, name, extension, size, mediaType, title, year, showTitle, season,
    episode⟩ := c
  have hprovider := foldlM_omitEmptyText (t := provider) (c := {})
    (setField_provider {} provider) (by rintro rfl; rfl)
  have hshow := foldlM_omitEmptyText (t := showTitle)
    (c := { provider, objectID, name, extension, size, mediaType, title, year })
    (setField_showTitle _ showTitle) (by rintro rfl; rfl)
  have hseason := foldlM_omitEmptyNumber (n := season)
    (c := { provider, objectID, name, extension, size, mediaType, title, year, showTitle })
    (setField_season _ season) (by rintro rfl; rfl)
  have hepisode := foldlM_omitEmptyNumber (n := episode)
    (c := { provider, objectID, name, extension, size, mediaType, title, year, showTitle, season })
    (setField_episode _ episode) (by rintro rfl; rfl)
  simp only [encodeConfiguration, decodeConfiguration, List.foldlM_append, hprovider,
    List.foldlM_cons, List.foldlM_nil, setField_objectID, setField_name, setField_extension,
    setField_size, setField_mediaType, setField_title, setField_year, Option.bind_eq_bind,
    Option.bind_some, Option.pure_def, hshow, hseason, hepisode]

theorem decodeManifest_encode (m : SetupManifest) : decodeManifest (encodeManifest m) = some m := by
  have hitems : (m.items.map encodeConfiguration).mapM decodeConfiguration = some m.items := by
    induction m.items with
    | nil => rfl
    | cons c items ih =>
      rw [List.map_cons, List.mapM_cons, decodeConfiguration_encode, ih]
      rfl
  have hset : setItems [] (text "items", .array (m.items.map encodeConfiguration)) =
      (m.items.map encodeConfiguration).mapM decodeConfiguration := rfl
  rw [encodeManifest, decodeManifest, List.foldlM_cons, hset, hitems]
  rfl

/-- Repairing the texts of what is encoded is encoding the repaired item. -/
theorem repair_encodeConfiguration (c : SetupConfiguration) :
    (encodeConfiguration c).repair = encodeConfiguration c.repair := by
  have happend : ∀ ms ns : List (ByteText × Json), Json.repairMembers (ms ++ ns) =
      Json.repairMembers ms ++ Json.repairMembers ns := by
    intro ms ns
    induction ms with
    | nil => rfl
    | cons m ms ih => rw [List.cons_append, Json.repairMembers, ih, Json.repairMembers,
        List.cons_append]
  have hkey : ∀ key : String, ByteText.repair (text key) = text key :=
    fun key => ByteText.repair_eq_self.2 (ByteText.isValid_text key)
  have hempty : ∀ t : ByteText, ByteText.repair t = [] ↔ t = [] := fun t => List.map_eq_nil_iff
  have htext : ∀ key t, Json.repairMembers (omitEmptyText key t) =
      omitEmptyText key (ByteText.repair t) := by
    intro key t
    unfold omitEmptyText
    simp only [hempty]
    split
    · rfl
    · rw [Json.repairMembers, hkey, Json.repair, Json.repairMembers]
  have hnumber : ∀ key n, Json.repairMembers (omitEmptyNumber key n) = omitEmptyNumber key n := by
    intro key n
    unfold omitEmptyNumber
    split
    · rfl
    · rw [Json.repairMembers, hkey, Json.int, Json.repair, Json.repairMembers]
  simp only [encodeConfiguration, SetupConfiguration.repair, Json.repair, happend, htext, hnumber,
    Json.repairMembers, hkey, Json.int]

theorem repair_encodeManifest (m : SetupManifest) :
    (encodeManifest m).repair = encodeManifest m.repair := by
  have helements : ∀ items : List SetupConfiguration,
      Json.repairElements (items.map encodeConfiguration) =
        (items.map SetupConfiguration.repair).map encodeConfiguration := by
    intro items
    induction items with
    | nil => rfl
    | cons c items ih => rw [List.map_cons, Json.repairElements, repair_encodeConfiguration, ih,
        List.map_cons, List.map_cons]
  have hkey : ByteText.repair (text "items") = text "items" := rfl
  rw [encodeManifest, Json.repair, Json.repairMembers, Json.repair, helements, hkey]
  rfl

theorem parse_marshalLine (v : Json) : Json.parse (marshalLine v) = some v.repair := by
  apply Json.parse_render
  intro c hc
  rw [List.mem_singleton.1 hc]
  rfl

/-- Reading a written item repairs its texts. -/
theorem unmarshalConfiguration_marshal (c : SetupConfiguration) :
    unmarshalConfiguration (marshalLine (encodeConfiguration c)) = some c.repair := by
  rw [unmarshalConfiguration, parse_marshalLine, Option.bind_some, repair_encodeConfiguration,
    decodeConfiguration_encode]

/-- Reading a written manifest repairs its texts. -/
theorem unmarshalManifest_marshal (m : SetupManifest) :
    unmarshalManifest (marshalLine (encodeManifest m)) = some m.repair := by
  rw [unmarshalManifest, parse_marshalLine, Option.bind_some, repair_encodeManifest,
    decodeManifest_encode]

theorem SetupConfiguration.repair_eq_self {c : SetupConfiguration} :
    c.repair = c ↔ c.isValid = true := by
  rw [SetupConfiguration.isValid_eq_true, ← ByteText.repair_eq_self, ← ByteText.repair_eq_self,
    ← ByteText.repair_eq_self, ← ByteText.repair_eq_self, ← ByteText.repair_eq_self,
    ← ByteText.repair_eq_self, ← ByteText.repair_eq_self]
  constructor
  · intro h
    exact ⟨congrArg provider h, congrArg objectID h, congrArg name h, congrArg extension h,
      congrArg mediaType h, congrArg title h, congrArg showTitle h⟩
  · rintro ⟨hprovider, hobject, hname, hextension, htype, htitle, hshow⟩
    rw [repair, hprovider, hobject, hname, hextension, htype, htitle, hshow]

@[simp] theorem SetupConfiguration.isValid_repair (c : SetupConfiguration) :
    c.repair.isValid = true := by
  simp [SetupConfiguration.isValid_eq_true, SetupConfiguration.repair]

/-- Repairing changes a manifest unless its texts are valid. -/
theorem SetupManifest.repair_eq_self {m : SetupManifest} : m.repair = m ↔ m.isValid = true := by
  obtain ⟨items⟩ := m
  rw [repair, isValid, SetupManifest.mk.injEq]
  induction items with
  | nil => simp
  | cons c items ih =>
    rw [List.map_cons, List.cons.injEq, SetupConfiguration.repair_eq_self, ih, List.all_cons,
      Bool.and_eq_true]

end BlackPearl.Setup
