import Doenerstag.Config.Settings

/-!
# Writing the configuration file (`internal/config/writer.go`, `retired.go`)

* `Version.valuesFrom`, `Version.renderFile` — `ValuesFrom` and `RenderFile`
* `Version.valuesFrom_eq` — the value of one setting: the configuration's, or the default for a zero one.
* `Version.oneLine_settingValue` — every value is written on one line.
* `Version.mem_fileLines`, `Version.line_fileLines` — the lines of the file.
-/

namespace Doenerstag

section Setting

variable {Field : Type} (arch : Arch) (s : Setting Field)

/-- `isZeroValue` -/
def isZeroValue (rendered : Text) : Bool :=
  match s.kind with
  | .int => rendered = "0".toList
  | .duration => rendered = "0s".toList || rendered = []
  | .byteSize => rendered = "0".toList || rendered = []
  | _ => rendered = []

/-- Two texts are read, and as the same number. -/
def sameNumber : Except ValueError Int64 → Except ValueError Int64 → Bool
  | .ok got, .ok want => got = want
  | _, _ => false

/-- `equalsDefault` -/
def equalsDefault (value : Text) : Bool :=
  let declared := defaultString s
  if value = declared then true
  else match s.kind with
    | .duration => sameNumber (parseDuration value) (parseDuration declared)
    | .byteSize => sameNumber (parseByteSize arch value) (parseByteSize arch declared)
    | _ => false

/-- `renderDefault` -/
def renderDefault : Text := if defaultString s = [] then "(empty)".toList else defaultString s

/-- The characters that `quote` escapes. -/
def escape (c : Char) : Text :=
  if c = '"' then ['\\', '"']
  else if c = '\\' then ['\\', '\\']
  else if c = '\n' then ['\\', 'n']
  else if c = '\r' then ['\\', 'r']
  else if c = '\t' then ['\\', 't']
  else [c]

def quote (value : Text) : Text := '"' :: (value.flatMap escape ++ ['"'])

/-- `yamlScalar` -/
def yamlScalar (value : Text) : Text :=
  match s.kind with
  | .int | .bool => if value = [] then defaultString s else value
  | _ => quote value

def capitalise : Text → Text
  | [] => []
  | c :: rest => (if 'a' ≤ c ∧ c ≤ 'z' then c.toUpper else c) :: rest

/-- What is written of a setting with a value. -/
def scalar (value : Text) : Text :=
  yamlScalar s (if equalsDefault arch s value then defaultString s else value)

/-- The line of `writeSetting` below the usage -/
def sourceLine : Text :=
  if s.secret then
    "  # Never accepted on the command line. May also be supplied as ".toList ++ s.env ++ ['.']
  else
    "  # Flag: --".toList ++ s.flag.toList ++ ". Environment: ".toList ++ s.env ++
      ". Default: ".toList ++ renderDefault s

/-- A line that sets something. -/
def settingLine (leaf value : Text) : Text := "  ".toList ++ (leaf ++ (": ".toList ++ value))

/-- `writeSetting` -/
def writeSetting (value : Text) : List Text :=
  ["  # ".toList ++ capitalise s.usage.toList ++ ['.'], sourceLine s,
    settingLine (leafKey s.key.toList) (scalar arch s value)]

end Setting

/-! ## The file -/

structure RetiredSetting where
  key : Text
  value : Text
  deriving DecidableEq, Repr

/-- The command that writes the file. -/
inductive Verb where
  | install
  | update
  deriving DecidableEq, Repr

def Verb.text : Verb → Text
  | .install => "install".toList
  | .update => "update".toList

structure RenderOptions where
  generatedAt : Time
  verb : Verb
  retired : List RetiredSetting

/-- `Values`, by flag -/
abbrev Values := String → Option Text

def headerLines (opts : RenderOptions) : List Text :=
  ["# doenerstag configuration".toList,
    "# Generated by doenerstag ".toList ++ opts.verb.text ++ " on ".toList ++
      (Time.rfc3339 opts.generatedAt).toList,
    "#".toList,
    "# Every setting is listed with its explanatory comment, so this file is also".toList,
    "# the reference. Any of them can be overridden by a DOENER_* environment".toList,
    "# variable or, except for the secrets, by a command line flag.".toList,
    "#".toList,
    "# This file holds the database password and the session signing secret, so it".toList,
    "# must stay readable only by its owner. The application refuses to start".toList,
    "# otherwise.".toList]

/-- The line above the retired settings -/
def retiredHeading : Text := "# Settings this version no longer has.".toList

/-- A retired setting, as a comment -/
def retiredLine (key value : Text) : Text := "# ".toList ++ (key ++ (": ".toList ++ value))

/-- What is said about the retired settings -/
def retiredNote : List Text :=
  [retiredHeading, "#".toList,
    "# They were in the file this one replaced. They are kept here, commented".toList,
    "# out, so that nothing an operator set is lost without trace -- but they".toList,
    "# do nothing, and removing them is safe.".toList]

/-- `renderRetired` -/
def renderRetired (retired : List RetiredSetting) : List Text :=
  if retired = [] then []
  else [] :: (retiredNote ++ retired.map fun setting => retiredLine setting.key setting.value)

/-- Lines, each with its end -/
def fileText (lines : List Text) : Text := lines.flatMap fun line => line ++ ['\n']

namespace Version

variable (arch : Arch) (V : Version)

/-- The values the configuration has fields for. -/
def boundValues (cfg : V.Config) : Values :=
  V.settings.foldl (fun v s => match s.bind with
    | some f => Function.update v s.flag (some (formatSetting (V.type f) (cfg f)))
    | none => v) fun _ => none

/-- `ValuesFrom` -/
def valuesFrom (cfg : V.Config) : Values :=
  V.settings.foldl (fun v s =>
    if s.inConfigFile && (v s.flag).all (isZeroValue s) then
      Function.update v s.flag (some (defaultString s))
    else v) (V.boundValues cfg)

/-- `settingsInSection` -/
def settingsInSection (part : String) : List (Setting V.Field) :=
  V.fileSettings.filter fun s => sectionOf s.key.toList = part.toList

/-- The keys that `checkSectionsAreKnown` finds fault with. -/
def unknownSections : List String :=
  (V.fileSettings.filter fun s => !V.sectionOrder.any fun part => part.toList = sectionOf s.key.toList).map
    Setting.key

/-- A section, unless it is empty. -/
def renderSection (values : Values) (part : String) : List Text :=
  let settings := V.settingsInSection part
  if settings = [] then []
  else [] :: (part.toList ++ [':']) ::
    settings.flatMap fun s => writeSetting arch s ((values s.flag).getD [])

/-- The lines that `RenderFile` writes. -/
def fileLines (values : Values) (opts : RenderOptions) : List Text :=
  headerLines opts ++ (V.sectionOrder.flatMap (V.renderSection arch values) ++ renderRetired opts.retired)

/-- `RenderFile`. The error has the keys whose section is not known. -/
def renderFile (values : Values) (opts : RenderOptions) : Except (List String) Text :=
  if V.unknownSections = [] then .ok (fileText (V.fileLines arch values opts))
  else .error V.unknownSections

end Version

/-! ## Values -/

section Fold

variable {α β : Type} {key : α → String} {F : α → β → β} {v : String → β}

theorem foldl_update_of_notMem {l : List α} {k : String} (hk : k ∉ l.map key) :
    l.foldl (fun v a => Function.update v (key a) (F a (v (key a)))) v k = v k := by
  induction l generalizing v with
  | nil => rfl
  | cons a l ih =>
    obtain ⟨hne, hk⟩ := not_or.mp (mt List.mem_cons.mpr hk)
    rw [List.foldl_cons, ih hk, Function.update_of_ne hne]

/-- Where no key is there twice, each is updated once. -/
theorem foldl_update_of_mem {l : List α} (hnodup : (l.map key).Nodup) {a : α} (ha : a ∈ l) :
    l.foldl (fun v a => Function.update v (key a) (F a (v (key a)))) v (key a) = F a (v (key a)) := by
  induction l generalizing v with
  | nil => cases ha
  | cons b l ih =>
    obtain ⟨hb, hnodup⟩ := List.nodup_cons.mp hnodup
    rw [List.foldl_cons]
    rcases List.mem_cons.mp ha with rfl | ha
    · rw [foldl_update_of_notMem hb, Function.update_self]
    · have hne : key a ≠ key b := fun heq => hb (heq ▸ List.mem_map_of_mem ha)
      rw [ih hnodup ha, Function.update_of_ne hne]

end Fold

namespace Version

variable {V : Version} {cfg : V.Config} {s : Setting V.Field}

/-- What a field is written as, unless it is the zero of its kind. -/
def settingValue (V : Version) (cfg : V.Config) (s : Setting V.Field) : Text :=
  match s.bind with
  | some f =>
    let rendered := formatSetting (V.type f) (cfg f)
    if isZeroValue s rendered then defaultString s else rendered
  | none => defaultString s

/-- **The value of one setting.** -/
theorem valuesFrom_eq (hs : s ∈ V.fileSettings) :
    V.valuesFrom cfg s.flag = some (V.settingValue cfg s) := by
  obtain ⟨hmem, hfile⟩ := List.mem_filter.mp hs
  have hbound : V.boundValues cfg s.flag =
      s.bind.map fun f => formatSetting (V.type f) (cfg f) := by
    have hstep : V.boundValues cfg = V.settings.foldl (fun (v : Values) s => Function.update v s.flag
        ((s.bind.map fun f => formatSetting (V.type f) (cfg f)).or (v s.flag))) fun _ => none := by
      unfold boundValues
      congr 1
      funext v s
      cases s.bind with
      | none => exact (Function.update_eq_self _ _).symm
      | some f => rfl
    rw [hstep, foldl_update_of_mem (F := fun s old =>
      (s.bind.map fun f => formatSetting (V.type f) (cfg f)).or old) V.flags hmem, Option.or_none]
  have hstep : V.valuesFrom cfg = V.settings.foldl (fun (v : Values) s => Function.update v s.flag
      (if s.inConfigFile && (v s.flag).all (isZeroValue s) then some (defaultString s) else v s.flag))
        (V.boundValues cfg) := by
    unfold valuesFrom
    congr 1
    funext v s
    split_ifs
    · rfl
    · exact (Function.update_eq_self _ _).symm
  rw [hstep, foldl_update_of_mem (F := fun s old =>
    if s.inConfigFile && old.all (isZeroValue s) then some (defaultString s) else old) V.flags hmem,
    hbound, hfile, Bool.true_and]
  unfold settingValue
  cases s.bind with
  | none => rfl
  | some f =>
    dsimp only [Option.map_some, Option.all_some]
    split_ifs <;> rfl

end Version

/-! ## Lines -/

/-- A value that stands on one line, with nothing around it. -/
structure OneLine (t : Text) : Prop where
  solid : Solid t
  line : '\n' ∉ t

theorem oneLine_itoa (n : Int) : OneLine (itoa n) where
  solid := itoa_solid n
  line := fun h => absurd (isSpace_itoa h) (by decide)

theorem oneLine_formatBool (b : Bool) : OneLine (formatBool b) := by
  cases b
  · exact ⟨solid_of_forall (by decide) (by decide), by decide⟩
  · exact ⟨solid_of_forall (by decide) (by decide), by decide⟩

theorem line_escape (c : Char) : '\n' ∉ escape c := by
  unfold escape
  split_ifs with h1 h2 h3 h4 h5
  · decide
  · decide
  · decide
  · decide
  · decide
  · exact fun h => h3 (List.mem_singleton.mp h).symm

theorem oneLine_quote (value : Text) : OneLine (quote value) := by
  refine ⟨⟨List.cons_ne_nil _ _, fun c hc => ?_, fun c hc => ?_⟩, fun h => ?_⟩
  · cases hc
    decide
  · unfold quote at hc
    rw [← List.cons_append, List.getLast?_append] at hc
    cases hc
    decide
  · rcases List.mem_cons.mp h with h | h
    · exact absurd h (by decide)
    rcases List.mem_append.mp h with h | h
    · obtain ⟨c, -, hc⟩ := List.mem_flatMap.mp h
      exact line_escape c hc
    · exact absurd h (by decide)

section Scalar

variable {Field : Type} {s : Setting Field}

theorem defaultString_int (hkind : s.kind = .int) (hfits : s.default.fits s.kind = true) :
    OneLine (defaultString s) := by
  rw [hkind] at hfits
  unfold defaultString
  cases hdefault : s.default with
  | string _ =>
    rw [hdefault] at hfits
    cases hfits
  | int n => exact oneLine_itoa _
  | bool _ =>
    rw [hdefault] at hfits
    cases hfits

theorem defaultString_bool (hkind : s.kind = .bool) (hfits : s.default.fits s.kind = true) :
    OneLine (defaultString s) := by
  rw [hkind] at hfits
  unfold defaultString
  cases hdefault : s.default with
  | string _ =>
    rw [hdefault] at hfits
    cases hfits
  | int _ =>
    rw [hdefault] at hfits
    cases hfits
  | bool b => exact oneLine_formatBool b

/-- Numbers and switches are written on one line. -/
theorem oneLine_formatSetting {type : FieldType} (hkind : type.kind = .int ∨ type.kind = .bool)
    (value : type.Value) : OneLine (formatSetting type value) := by
  cases type with
  | int => exact oneLine_itoa _
  | bool => exact oneLine_formatBool _
  | string | duration | int64 | level => rcases hkind with h | h <;> cases h

/-- A scalar is on one line if the texts it is made of are, where they are not put into quotes. -/
theorem oneLine_scalar {arch : Arch} {value : Text} (hfits : s.default.fits s.kind = true)
    (hvalue : s.kind = .int ∨ s.kind = .bool → OneLine value) : OneLine (scalar arch s value) := by
  unfold scalar
  have hplain : s.kind = .int ∨ s.kind = .bool → OneLine (defaultString s) := fun h =>
    h.elim (fun h => defaultString_int h hfits) (fun h => defaultString_bool h hfits)
  generalize hchosen : (if equalsDefault arch s value then defaultString s else value) = chosen
  have hline : s.kind = .int ∨ s.kind = .bool → OneLine chosen := by
    intro h
    rw [← hchosen]
    split_ifs
    · exact hplain h
    · exact hvalue h
  unfold yamlScalar
  cases hkind : s.kind with
  | int =>
    rw [if_neg (hline (.inl hkind)).solid.nonempty]
    exact hline (.inl hkind)
  | bool =>
    rw [if_neg (hline (.inr hkind)).solid.nonempty]
    exact hline (.inr hkind)
  | string => exact oneLine_quote chosen
  | duration => exact oneLine_quote chosen
  | byteSize => exact oneLine_quote chosen

end Scalar

namespace Version

variable {V : Version} {arch : Arch} {cfg : V.Config} {s : Setting V.Field}

/-- **Every value is written on one line.** -/
theorem oneLine_settingValue (hs : s ∈ V.fileSettings) :
    OneLine (scalar arch s (V.settingValue cfg s)) := by
  have hmem := List.mem_of_mem_filter hs
  have hfits := V.defaults s hmem
  refine oneLine_scalar hfits fun hkind => ?_
  have hdefault : OneLine (defaultString s) :=
    hkind.elim (fun h => defaultString_int h hfits) (fun h => defaultString_bool h hfits)
  unfold settingValue
  cases hbind : s.bind with
  | none => exact hdefault
  | some f =>
    dsimp only
    split_ifs
    · exact hdefault
    · refine oneLine_formatSetting ?_ _
      rwa [V.kinds s hmem f hbind]

end Version

/-- A text is split into its lines again. -/
theorem splitOn_fileText {lines : List Text} (hlines : ∀ line ∈ lines, '\n' ∉ line) :
    (fileText lines).splitOn '\n' = lines ++ [[]] := by
  induction lines with
  | nil => rfl
  | cons line lines ih =>
    have htext : fileText (line :: lines) = line ++ '\n' :: fileText lines := by
      show (line ++ ['\n']) ++ fileText lines = _
      rw [List.append_assoc]
      rfl
    rw [htext, List.splitOn_append_cons_self_of_not_mem (hlines line List.mem_cons_self),
      ih fun line hline => hlines line (List.mem_cons_of_mem _ hline), List.cons_append]

/-! ## The lines of the file -/

theorem line_append {a b : Text} (ha : '\n' ∉ a) (hb : '\n' ∉ b) : '\n' ∉ a ++ b := fun h =>
  (List.mem_append.mp h).elim ha hb

/-- A text that is written out, by its characters -/
theorem line_literal {l : Text} (h : '\n' ∉ l) : '\n' ∉ (String.ofList l).toList := by
  rwa [String.toList_ofList]

theorem IsWord.line {w : Text} (hw : IsWord w) : '\n' ∉ w := fun h =>
  absurd (hw.2 _ h).1 (by decide)

/-- The end of a line is no capital letter. -/
theorem toUpper_line {c : Char} (hc : c.toUpper = '\n') : c = '\n' := by
  have hletters : ∀ n < 123, 97 ≤ n → (Char.ofNat n).toUpper ≠ '\n' := by decide +kernel
  by_cases hlower : 97 ≤ c.toNat ∧ c.toNat < 123
  · have hne := hletters c.toNat hlower.2 hlower.1
    rw [Char.ofNat_toNat] at hne
    exact absurd hc hne
  · have hrange : ¬ ('a'.val ≤ c.val ∧ c.val ≤ 'z'.val) := fun h =>
      hlower ⟨h.1, Nat.lt_succ_of_le h.2⟩
    have hsame : c.toUpper = c := dif_neg hrange
    rwa [hsame] at hc

theorem line_padded (width : Nat) (n : Int) : '\n' ∉ (padded width n).toList := by
  unfold padded
  dsimp only
  rw [String.toList_append, String.toList_append, String.toList_ofList]
  refine line_append (line_append ?_ ?_) ?_
  · split_ifs <;> decide
  · intro h
    exact absurd (List.eq_of_mem_replicate h) (by decide)
  · exact fun h => absurd (isSpace_itoa (n := (n.natAbs : Int)) h) (by decide)

theorem line_rfc3339 (t : Time) : '\n' ∉ (Time.rfc3339 t).toList := by
  unfold Time.rfc3339
  simp only [String.toList_append, List.mem_append, not_or]
  have hdash : '\n' ∉ "-".toList := line_literal (by decide)
  have hcolon : '\n' ∉ ":".toList := line_literal (by decide)
  exact ⟨⟨⟨⟨⟨⟨⟨⟨⟨⟨⟨line_padded _ _, hdash⟩, line_padded _ _⟩, hdash⟩, line_padded _ _⟩,
    line_literal (by decide)⟩, line_padded _ _⟩, hcolon⟩, line_padded _ _⟩, hcolon⟩, line_padded _ _⟩,
    line_literal (by decide)⟩

theorem line_env {Field : Type} {s : Setting Field} (hflag : '\n' ∉ s.flag.toList) : '\n' ∉ s.env := by
  refine line_append (line_literal (by decide)) fun h => ?_
  obtain ⟨c, hc, heq⟩ := List.mem_map.mp h
  split_ifs at heq
  · cases heq
  · exact hflag (toUpper_line heq ▸ hc)

theorem line_capitalise {t : Text} (ht : '\n' ∉ t) : '\n' ∉ capitalise t := by
  cases t with
  | nil => exact ht
  | cons c rest =>
    intro h
    rcases List.mem_cons.mp h with h | h
    · split_ifs at h
      · exact ht (toUpper_line h.symm ▸ List.mem_cons_self)
      · exact ht (h ▸ List.mem_cons_self)
    · exact ht (List.mem_cons_of_mem _ h)

namespace Version

variable {V : Version} {arch : Arch} {cfg : V.Config} {opts : RenderOptions}

theorem line_sourceLine {s : Setting V.Field} (hs : s ∈ V.settings) : '\n' ∉ sourceLine s := by
  obtain ⟨hflag, -, hdefault⟩ := V.lines s hs
  unfold sourceLine
  split_ifs
  · exact line_append (line_append (line_literal (by decide)) (line_env hflag)) (by decide)
  · refine line_append (line_append (line_append (line_append (line_append (line_literal (by decide)) hflag)
      (line_literal (by decide))) (line_env hflag)) (line_literal (by decide))) ?_
    unfold renderDefault
    split_ifs
    · exact line_literal (by decide)
    · exact hdefault

/-- The key of a setting of the file, in its section. -/
theorem dotted_key {s : Setting V.Field} (hs : s ∈ V.fileSettings) :
    Dotted s.key.toList (sectionOf s.key.toList) (leafKey s.key.toList) := by
  obtain ⟨hmem, hfile⟩ := List.mem_filter.mp hs
  obtain ⟨part, leaf, hkey⟩ := V.keys s hmem hfile
  have hcut : cut '.' s.key.toList = some (part, leaf) := by
    rw [hkey.split]
    exact cut_append hkey.part.2 leaf
  unfold sectionOf leafKey
  rw [hcut]
  exact hkey

/-- What the file may be asked to keep. A colon ends a key. -/
def Sound (V : Version) (retired : List RetiredSetting) : Prop :=
  ∀ r ∈ retired, ':' ∉ r.key ∧ '\n' ∉ r.key ∧ '\n' ∉ r.value ∧ V.knows r.key = false

theorem dotted_line {key part leaf : Text} (h : Dotted key part leaf) : '\n' ∉ key := by
  rw [h.split]
  exact line_append h.part.1.line fun hmem => (List.mem_cons.mp hmem).elim (by decide) h.leaf.line

/-- **What a line of the file is.** -/
theorem mem_fileLines {values : Values} {line : Text} (h : line ∈ V.fileLines arch values opts) :
    line ∈ headerLines opts ∨ line = [] ∨
      (∃ s ∈ V.fileSettings, line = sectionOf s.key.toList ++ [':'] ∨
        line ∈ writeSetting arch s ((values s.flag).getD [])) ∨
      line ∈ retiredNote ∨ ∃ r ∈ opts.retired, line = retiredLine r.key r.value := by
  unfold fileLines at h
  rcases List.mem_append.mp h with h | h
  · exact .inl h
  refine .inr ?_
  rcases List.mem_append.mp h with h | h
  · obtain ⟨part, -, h⟩ := List.mem_flatMap.mp h
    unfold renderSection at h
    dsimp only at h
    split_ifs at h with hnone
    · cases h
    obtain ⟨s, hs⟩ := List.exists_mem_of_ne_nil _ hnone
    obtain ⟨hfile, hpart⟩ := List.mem_filter.mp hs
    rcases List.mem_cons.mp h with h | h
    · exact .inl h
    rcases List.mem_cons.mp h with h | h
    · exact .inr (.inl ⟨s, hfile, .inl (by rw [h, of_decide_eq_true hpart])⟩)
    · obtain ⟨s', hs', h⟩ := List.mem_flatMap.mp h
      exact .inr (.inl ⟨s', List.mem_of_mem_filter hs', .inr h⟩)
  · unfold renderRetired at h
    split_ifs at h
    · cases h
    rcases List.mem_cons.mp h with h | h
    · exact .inl h
    rcases List.mem_append.mp h with h | h
    · exact .inr (.inr (.inl h))
    · obtain ⟨r, hr, h⟩ := List.mem_map.mp h
      exact .inr (.inr (.inr ⟨r, hr, h.symm⟩))

theorem line_headerLines (opts : RenderOptions) : ∀ line ∈ headerLines opts, '\n' ∉ line := by
  have hverb : '\n' ∉ opts.verb.text := by
    cases opts.verb <;> exact line_literal (by decide)
  unfold headerLines
  simp only [List.forall_mem_cons]
  refine ⟨line_literal (by decide), ?_, line_literal (by decide), line_literal (by decide),
    line_literal (by decide), line_literal (by decide), line_literal (by decide), line_literal (by decide),
    line_literal (by decide), line_literal (by decide), List.forall_mem_nil _⟩
  exact line_append (line_append (line_append (line_literal (by decide)) hverb) (line_literal (by decide))) (line_rfc3339 _)

/-- **Every line is one line.** -/
theorem line_fileLines (hretired : V.Sound opts.retired) :
    ∀ line ∈ V.fileLines arch (V.valuesFrom cfg) opts, '\n' ∉ line := by
  intro line hline
  rcases mem_fileLines hline with h | rfl | ⟨s, hs, hline⟩ | h | ⟨r, hr, rfl⟩
  · exact line_headerLines opts line h
  · exact List.not_mem_nil
  · have hkey := dotted_key hs
    have hmem := List.mem_of_mem_filter hs
    rcases hline with rfl | hline
    · exact line_append hkey.part.1.line (by decide)
    rw [valuesFrom_eq hs] at hline
    unfold writeSetting at hline
    simp only [List.mem_cons, List.not_mem_nil, or_false] at hline
    rcases hline with rfl | rfl | rfl
    · exact line_append (line_append (line_literal (by decide)) (line_capitalise (V.lines s hmem).2.1)) (by decide)
    · exact line_sourceLine hmem
    · exact line_append (line_literal (by decide)) (line_append hkey.leaf.line
        (line_append (line_literal (by decide)) (oneLine_settingValue hs).line))
  · have hnote : ∀ line ∈ retiredNote, '\n' ∉ line := by
      unfold retiredNote retiredHeading
      simp only [List.forall_mem_cons]
      exact ⟨line_literal (by decide), line_literal (by decide), line_literal (by decide),
        line_literal (by decide), line_literal (by decide), List.forall_mem_nil _⟩
    exact hnote line h
  · obtain ⟨-, hkey, hvalue, -⟩ := hretired r hr
    exact line_append (line_literal (by decide)) (line_append hkey (line_append (line_literal (by decide)) hvalue))

end Version

end Doenerstag
