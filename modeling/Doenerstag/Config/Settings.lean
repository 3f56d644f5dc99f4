import Doenerstag.Config.Units

/-!
# Settings (`internal/config/settings.go`, `bind.go`)

Every setting is declared once, in a registry, with the field of the configuration it fills. Versions of
the program differ in their registries.

* `Version` — a registry that is one: no flag twice, and keys and texts a file can hold.
* `Version.Config` — the fields of its configuration.
-/

namespace Doenerstag

inductive Kind where
  | string
  | int
  | bool
  | duration
  | byteSize
  deriving DecidableEq, Repr

/-- The types of the fields -/
inductive FieldType where
  | string
  | int
  | bool
  | duration
  | int64
  | level
  deriving DecidableEq, Repr

/-- What a field holds. -/
abbrev FieldType.Value : FieldType → Type
  | .string => Text
  | .int => Int64
  | .bool => Bool
  | .duration => Int64
  | .int64 => Int64
  | .level => Level

/-- The kind of the settings that fill a field. -/
def FieldType.kind : FieldType → Kind
  | .string => .string
  | .int => .int
  | .bool => .bool
  | .duration => .duration
  | .int64 => .byteSize
  | .level => .string

/-- The declared default -/
inductive Default where
  | string (s : String)
  | int (n : Int64)
  | bool (b : Bool)
  deriving DecidableEq, Repr

inductive Scope where
  | global
  | server
  | install
  | cleanup
  deriving DecidableEq, Repr

/-- `Setting`, with the name of the field that `Bind` points at. -/
structure Setting (Field : Type) where
  flag : String
  /-- empty for a setting that is never written to the file -/
  key : String
  bind : Option Field
  kind : Kind
  default : Default
  usage : String
  scopes : List Scope
  secret : Bool

namespace Setting

variable {Field : Type} (s : Setting Field)

def inConfigFile : Bool := s.key ≠ ""

/-- `Env` -/
def env : Text :=
  "DOENER_".toList ++ s.flag.toList.map fun c => if c = '-' then '_' else c.toUpper

end Setting

/-- `strconv.FormatBool` -/
def formatBool (b : Bool) : Text := if b then "true".toList else "false".toList

/-- `defaultString` -/
def defaultString {Field : Type} (s : Setting Field) : Text :=
  match s.default with
  | .string value => value.toList
  | .int value => itoa value.toInt
  | .bool value => formatBool value

/-- `formatSetting` -/
def formatSetting : (type : FieldType) → type.Value → Text
  | .string, s => s
  | .int, n => itoa n.toInt
  | .bool, b => formatBool b
  | .duration, d => formatDuration d
  | .int64, n => formatByteSize n
  | .level, level => level.name

/-! ## Keys -/

/-- `sectionOf` -/
def sectionOf (key : Text) : Text := ((cut '.' key).map Prod.fst).getD []

/-- `leafKey` -/
def leafKey (key : Text) : Text := ((cut '.' key).map Prod.snd).getD key

/-- A name that is written as it is. -/
def IsWord (w : Text) : Prop := w ≠ [] ∧ ∀ c ∈ w, isSpace c = false ∧ c ≠ ':' ∧ c ≠ '#'

/-- A section and the name of a setting in it. -/
structure Dotted (key part leaf : Text) : Prop where
  split : key = part ++ '.' :: leaf
  part : IsWord part ∧ '.' ∉ part
  leaf : IsWord leaf

/-- The default is of the type that the kind of the setting asks for. -/
def Default.fits (default : Default) (kind : Kind) : Bool :=
  match default with
  | .string _ => kind != .int && kind != .bool
  | .int _ => kind == .int
  | .bool _ => kind == .bool

/-- A version of the program, with what its registry is held to. -/
structure Version where
  /-- the fields of its `Config` -/
  Field : Type
  fields : DecidableEq Field
  type : Field → FieldType
  /-- `Settings` -/
  settings : List (Setting Field)
  /-- `sectionOrder` -/
  sectionOrder : List String
  flags : (settings.map Setting.flag).Nodup
  keys : ∀ s ∈ settings, s.inConfigFile → ∃ part leaf, Dotted s.key.toList part leaf
  kinds : ∀ s ∈ settings, ∀ f, s.bind = some f → (type f).kind = s.kind
  defaults : ∀ s ∈ settings, s.default.fits s.kind
  lines : ∀ s ∈ settings, '\n' ∉ s.flag.toList ∧ '\n' ∉ s.usage.toList ∧ '\n' ∉ defaultString s

namespace Version

variable (V : Version)

instance : DecidableEq V.Field := V.fields

/-- `Config` -/
abbrev Config := (f : V.Field) → (V.type f).Value

/-- The settings the file records. -/
def fileSettings : List (Setting V.Field) := V.settings.filter Setting.inConfigFile

/-- The keys that the version knows. -/
def knows (key : Text) : Bool := V.fileSettings.any fun s => s.key.toList = key

end Version

end Doenerstag
