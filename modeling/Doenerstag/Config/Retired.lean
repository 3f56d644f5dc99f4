import Doenerstag.Config.Writer
import Mathlib.Data.List.DropRight
import Mathlib.Data.List.TakeWhile

/-!
# Retired settings (`internal/config/retired.go`, `internal/update/update.go`)

`update` writes the configuration file anew with the settings of its version. Those that the version
does not know go into a block of comments.

* `Version.retiredIn`, `Version.writeConfig` — `RetiredIn` and `writeConfig`
* `StandsActive`, `StandsCommented` — a setting in its section, and one in the block
* `Version.mem_retiredIn_of_active` — an active setting that is not known is found, in every text.
* `Version.mem_retiredIn_fileText` — **in a written file nothing else is.** The scan skips the comments.
* `update_kept_iff` — **so a run keeps what it does not know if and only if it knows all of the block.**
-/

namespace Doenerstag

/-! ## The scan -/

/-- `strings.TrimRight(_, "\r")` -/
def trimReturns (line : Text) : Text := line.rdropWhile (· = '\r')

/-- One turn of the loop of `RetiredIn`. The state is the section and what has been found. -/
def scanLine (known : Text → Bool) (state : Text × List RetiredSetting) (line : Text) :
    Text × List RetiredSetting :=
  let trimmed := trimReturns line
  if trimmed = [] ∨ (trim trimmed).head? = some '#' then state
  -- a section header sits at column zero and ends in a colon
  else if trimmed.head? ≠ some ' ' ∧ (trim trimmed).getLast? = some ':' then
    ((trim trimmed).dropLast, state.2)
  else if state.1 = [] ∨ trimmed.head? ≠ some ' ' then state
  else match cut ':' (trim trimmed) with
    | none => state
    | some (name, value) =>
      if known (state.1 ++ '.' :: trim name) then state
      else (state.1, state.2 ++ [⟨state.1 ++ '.' :: trim name, trim value⟩])

namespace Version

variable (V : Version) (arch : Arch)

/-- `RetiredIn` -/
def retiredIn (existing : Text) : List RetiredSetting :=
  ((existing.splitOn '\n').foldl (scanLine V.knows) ([], [])).2.mergeSort
    fun a b => !decide (b.key < a.key)

/-- `writeConfig`, with the file it writes and the keys it answers. -/
def writeConfig (cfg : V.Config) (generatedAt : Time) (existing : Option Text) :
    Except (List String) (Text × List Text) :=
  let retired := existing.elim [] V.retiredIn
  match V.renderFile arch (V.valuesFrom cfg) ⟨generatedAt, .update, retired⟩ with
  | .ok body => .ok (body, retired.map RetiredSetting.key)
  | .error keys => .error keys

end Version

/-! ## Where a setting stands -/

/-- In the lines of its section -/
def StandsActive (file key value : Text) : Prop :=
  ∃ part leaf before between after, Dotted key part leaf ∧ OneLine value ∧
    (∀ line ∈ between, line.head? = some ' ') ∧
    file.splitOn '\n' =
      before ++ (part ++ [':']) :: (between ++ settingLine leaf value :: after)

/-- In the block of comments -/
def StandsCommented (file key value : Text) : Prop :=
  (∃ part leaf, Dotted key part leaf) ∧ ∃ before after,
    file.splitOn '\n' = before ++ retiredHeading :: after ∧ retiredLine key value ∈ after

def Stands (file key value : Text) : Prop :=
  StandsActive file key value ∨ StandsCommented file key value

/-- A file that `RenderFile` has written. -/
def Written (file : Text) : Prop :=
  ∃ (V : Version) (arch : Arch) (cfg : V.Config) (opts : RenderOptions),
    V.Sound opts.retired ∧ V.renderFile arch (V.valuesFrom cfg) opts = .ok file

/-- A run of `update` over a file -/
def Update (file file' : Text) : Prop :=
  ∃ (V : Version) (arch : Arch) (cfg : V.Config) (generatedAt : Time) (keys : List Text),
    V.writeConfig arch cfg generatedAt (some file) = .ok (file', keys)

/-! ## What a line does to the scan -/

/-- A line that the scan skips as a comment. -/
def IsComment (line : Text) : Prop := (line.dropWhile (· = ' ')).head? = some '#'

instance (line : Text) : Decidable (IsComment line) := inferInstanceAs (Decidable (_ = _))

/-- A text that is written out, by its characters -/
theorem IsComment.literal {l : Text} (h : IsComment l) : IsComment (String.ofList l).toList := by
  rwa [String.toList_ofList]

theorem IsComment.append {line : Text} (h : IsComment line) (more : Text) : IsComment (line ++ more) := by
  unfold IsComment at h ⊢
  have hne : line.dropWhile (· = ' ') ≠ [] := fun hnil => by
    rw [hnil] at h
    cases h
  rw [List.dropWhile_append, if_neg (by rwa [List.isEmpty_iff]), List.head?_append_of_ne_nil _ hne]
  exact h

/-- What is dropped from the end stops at a character that stays. -/
theorem rdropWhile_append_cons {p : Char → Bool} {c : Char} (hc : p c = false) (a b : Text) :
    (a ++ c :: b).rdropWhile p = a ++ c :: b.rdropWhile p := by
  induction b using List.reverseRecOn with
  | nil => exact List.rdropWhile_concat_neg p a c (by rw [hc]; decide)
  | append_singleton b d ih =>
    rw [← List.cons_append, ← List.append_assoc, List.rdropWhile_concat, List.rdropWhile_concat, ih]
    by_cases hd : p d = true
    · rw [if_pos hd, if_pos hd]
    · rw [if_neg hd, if_neg hd, ← List.cons_append, List.append_assoc]

section Scan

variable {known : Text → Bool} {state : Text × List RetiredSetting}

theorem scanLine_blank : scanLine known state [] = state := by
  unfold scanLine
  dsimp only
  rw [if_pos (.inl rfl)]

theorem scanLine_comment {line : Text} (h : IsComment line) : scanLine known state line = state := by
  have hspaces : ∀ c ∈ line.takeWhile (· = ' '), isSpace c = true := fun c hc => by
    have heq : c = ' ' := of_decide_eq_true (List.mem_takeWhile_imp (p := (· = ' ')) hc)
    rw [heq]
    decide
  obtain ⟨rest, hrest⟩ := List.head?_eq_some_iff.mp h
  have hline : line = line.takeWhile (· = ' ') ++ '#' :: rest := by
    rw [← hrest, List.takeWhile_append_dropWhile]
  have htrimmed : trimReturns line =
      line.takeWhile (· = ' ') ++ '#' :: rest.rdropWhile (· = '\r') := by
    conv_lhs => rw [hline]
    exact rdropWhile_append_cons (p := (· = '\r')) (by decide) _ _
  have hhead : (trim (trimReturns line)).head? = some '#' := by
    have hdrop : (trimReturns line).dropWhile isSpace = '#' :: rest.rdropWhile (· = '\r') := by
      rw [htrimmed, dropWhile_space hspaces fun c hc => by cases hc; decide]
    show (((trimReturns line).dropWhile isSpace).rdropWhile isSpace).head? = some '#'
    rw [hdrop]
    exact congrArg List.head? (rdropWhile_append_cons (p := isSpace) (by decide) [] _)
  unfold scanLine
  dsimp only
  rw [if_pos (.inr hhead)]

/-- Nothing comes off a line that does not end in a space. -/
theorem trimReturns_of_last {line : Text} {c : Char} (hlast : line.getLast? = some c)
    (hc : isSpace c = false) : trimReturns line = line := by
  refine List.rdropWhile_eq_self_iff.mpr fun hne h => ?_
  rw [List.getLast?_eq_getLast_of_ne_nil hne] at hlast
  rw [Option.some.inj hlast, decide_eq_true_eq] at h
  subst h
  cases hc

theorem IsWord.head {w : Text} (hw : IsWord w) : ∃ c rest, w = c :: rest ∧ isSpace c = false ∧ c ≠ '#' := by
  obtain ⟨c, rest, rfl⟩ := List.exists_cons_of_ne_nil hw.1
  exact ⟨c, rest, rfl, (hw.2 c List.mem_cons_self).1, (hw.2 c List.mem_cons_self).2.2⟩

theorem ne_space {c : Char} (hc : isSpace c = false) : c ≠ ' ' := by
  rintro rfl
  cases hc

theorem scanLine_header {part : Text} (hpart : IsWord part) :
    scanLine known state (part ++ [':']) = (part, state.2) := by
  obtain ⟨c, rest, hcons, hc, hhash⟩ := hpart.head
  have hlast : (part ++ [':']).getLast? = some ':' := List.getLast?_concat
  have htrimmed : trimReturns (part ++ [':']) = part ++ [':'] := trimReturns_of_last hlast (by decide)
  have hhead : (part ++ [':']).head? = some c := by rw [hcons]; rfl
  have hsolid : Solid (part ++ [':']) := by
    refine solid_of_forall (List.append_ne_nil_of_right_ne_nil _ (by decide)) fun d hd => ?_
    rcases List.mem_append.mp hd with hd | hd
    · exact (hpart.2 d hd).1
    · rw [List.mem_singleton.mp hd]
      decide
  unfold scanLine
  dsimp only
  rw [htrimmed, hsolid.trim, hhead, hlast, if_neg, if_pos, List.dropLast_concat]
  · exact ⟨fun h => ne_space hc (Option.some.inj h), rfl⟩
  · exact not_or.mpr ⟨hsolid.nonempty, fun h => hhash (Option.some.inj h)⟩

/-- An indented line is in the section of the line before. -/
theorem scanLine_indented {line : Text} (h : line.head? = some ' ') :
    (scanLine known state line).1 = state.1 := by
  obtain ⟨rest, rfl⟩ := List.head?_eq_some_iff.mp h
  have hhead : (trimReturns (' ' :: rest)).head? = some ' ' :=
    congrArg List.head? (rdropWhile_append_cons (p := (· = '\r')) (by decide) [] rest)
  unfold scanLine
  dsimp only
  split_ifs with h1 h2 h3
  · rfl
  · exact absurd hhead h2.1
  · rfl
  · split
    · rfl
    · split_ifs <;> rfl

theorem mem_scanLine {line : Text} {r : RetiredSetting} (h : r ∈ state.2) :
    r ∈ (scanLine known state line).2 := by
  unfold scanLine
  dsimp only
  split_ifs
  · exact h
  · exact h
  · exact h
  · split
    · exact h
    · split_ifs
      · exact h
      · exact List.mem_append_left _ h

theorem scanLine_setting {part leaf value : Text} {acc : List RetiredSetting} (hpart : part ≠ [])
    (hleaf : IsWord leaf) (hvalue : Solid value) :
    scanLine known (part, acc) (settingLine leaf value) =
      if known (part ++ '.' :: leaf) then (part, acc)
      else (part, acc ++ [⟨part ++ '.' :: leaf, value⟩]) := by
  obtain ⟨c, rest, hcons, hc, hhash⟩ := hleaf.head
  have hsetting : settingLine leaf value = "  ".toList ++ ((leaf ++ ": ".toList ++ value) ++ []) := by
    rw [List.append_nil, List.append_assoc]
    rfl
  have hbodyHead : (leaf ++ ": ".toList ++ value).head? = some c := by rw [hcons]; rfl
  have hbody : Solid (leaf ++ ": ".toList ++ value) := by
    refine ⟨List.append_ne_nil_of_right_ne_nil _ hvalue.nonempty, fun d hd => ?_, fun d hd => ?_⟩
    · rw [hbodyHead] at hd
      exact Option.some.inj hd ▸ hc
    · rw [List.getLast?_append_of_ne_nil _ hvalue.nonempty] at hd
      exact hvalue.last d hd
  obtain ⟨d, hd⟩ : ∃ d, value.getLast? = some d :=
    ⟨_, List.getLast?_eq_getLast_of_ne_nil hvalue.nonempty⟩
  have htrimmed : trimReturns (settingLine leaf value) = settingLine leaf value := by
    refine trimReturns_of_last (c := d) ?_ (hvalue.last d hd)
    unfold settingLine
    rw [← List.append_assoc, ← List.append_assoc, List.getLast?_append_of_ne_nil _ hvalue.nonempty, hd]
  have htrim : trim (settingLine leaf value) = leaf ++ ": ".toList ++ value := by
    rw [hsetting]
    exact trim_padded hbody (by decide) fun _ h => nomatch h
  have hcut : cut ':' (leaf ++ ": ".toList ++ value) = some (leaf, " ".toList ++ value) := by
    rw [List.append_assoc]
    exact cut_append (fun h => (hleaf.2 ':' h).2.1 rfl) (" ".toList ++ value)
  have hname : trim leaf = leaf := (solid_of_forall hleaf.1 fun c hc => (hleaf.2 c hc).1).trim
  have hright : trim (" ".toList ++ value) = value := by
    have h : trim (" ".toList ++ (value ++ [])) = value :=
      trim_padded hvalue (by decide) fun _ h => nomatch h
    rwa [List.append_nil] at h
  have hspace : (settingLine leaf value).head? = some ' ' := rfl
  unfold scanLine
  dsimp only
  rw [htrimmed, htrim, hbodyHead, hspace, hcut, if_neg, if_neg, if_neg]
  · dsimp only
    rw [hname, hright]
  · exact not_or.mpr ⟨hpart, fun h => h rfl⟩
  · exact fun h => h.1 rfl
  · refine not_or.mpr ⟨fun h => ?_, fun h => hhash (Option.some.inj h)⟩
    rw [h] at hspace
    cases hspace

theorem foldl_indented {lines : List Text} (h : ∀ line ∈ lines, line.head? = some ' ') :
    (lines.foldl (scanLine known) state).1 = state.1 := by
  induction lines generalizing state with
  | nil => rfl
  | cons line lines ih =>
    rw [List.foldl_cons, ih fun l hl => h l (List.mem_cons_of_mem _ hl),
      scanLine_indented (h line List.mem_cons_self)]

theorem mem_foldl_scanLine {lines : List Text} {r : RetiredSetting} (h : r ∈ state.2) :
    r ∈ (lines.foldl (scanLine known) state).2 := by
  induction lines generalizing state with
  | nil => exact h
  | cons line lines ih => exact ih (mem_scanLine h)

theorem foldl_comments {lines : List Text} (h : ∀ line ∈ lines, line = [] ∨ IsComment line) :
    lines.foldl (scanLine known) state = state := by
  induction lines with
  | nil => rfl
  | cons line lines ih =>
    have hline : scanLine known state line = state := by
      rcases h line List.mem_cons_self with rfl | hcomment
      · exact scanLine_blank
      · exact scanLine_comment hcomment
    rw [List.foldl_cons, hline, ih fun l hl => h l (List.mem_cons_of_mem _ hl)]

end Scan

/-! ## What the scan finds -/

namespace Version

variable {V W : Version} {arch : Arch} {cfg : W.Config} {opts : RenderOptions}

/-- **An active setting that is not known is found**, in whatever text it stands. -/
theorem mem_retiredIn_of_active {file key value : Text} (h : StandsActive file key value)
    (hunknown : V.knows key = false) : ⟨key, value⟩ ∈ V.retiredIn file := by
  obtain ⟨part, leaf, before, between, after, hkey, hvalue, hbetween, hlines⟩ := h
  unfold retiredIn
  rw [List.mem_mergeSort, hlines, List.foldl_append, List.foldl_cons, scanLine_header hkey.part.1,
    List.foldl_append, List.foldl_cons]
  refine mem_foldl_scanLine ?_
  generalize (before.foldl (scanLine V.knows) ([], [])).2 = acc
  have hpart : (between.foldl (scanLine V.knows) (part, acc)).1 = part := foldl_indented hbetween
  generalize between.foldl (scanLine V.knows) (part, acc) = state at hpart
  obtain ⟨found, acc'⟩ := state
  have hfound : found = part := hpart
  rw [hfound, scanLine_setting hkey.part.1.1 hkey.leaf hvalue.solid, ← hkey.split,
    if_neg (by rw [hunknown]; decide)]
  exact List.mem_append_right _ List.mem_cons_self

/-- What a file of the version `W` has for the version `V` to retire. -/
def FoundIn (V W : Version) (arch : Arch) (cfg : W.Config) (r : RetiredSetting) : Prop :=
  V.knows r.key = false ∧
    ∃ s ∈ W.fileSettings, r = ⟨s.key.toList, scalar arch s (W.settingValue cfg s)⟩

theorem comment_headerLines : ∀ line ∈ headerLines opts, line = [] ∨ IsComment line := by
  unfold headerLines
  simp only [List.forall_mem_cons]
  refine ⟨.inr (.literal (by decide)), .inr ?_, .inr (.literal (by decide)), .inr (.literal (by decide)),
    .inr (.literal (by decide)), .inr (.literal (by decide)), .inr (.literal (by decide)),
    .inr (.literal (by decide)), .inr (.literal (by decide)), .inr (.literal (by decide)), List.forall_mem_nil _⟩
  have hstart : IsComment "# Generated by doenerstag ".toList := .literal (by decide)
  exact ((hstart.append _).append _).append _

theorem comment_renderRetired (retired : List RetiredSetting) :
    ∀ line ∈ renderRetired retired, line = [] ∨ IsComment line := by
  intro line hline
  unfold renderRetired at hline
  split_ifs at hline
  · cases hline
  rcases List.mem_cons.mp hline with h | h
  · exact .inl h
  refine .inr ?_
  rcases List.mem_append.mp h with h | h
  · have hnote : ∀ line ∈ retiredNote, IsComment line := by
      unfold retiredNote retiredHeading
      simp only [List.forall_mem_cons]
      exact ⟨.literal (by decide), .literal (by decide), .literal (by decide), .literal (by decide),
        .literal (by decide), List.forall_mem_nil _⟩
    exact hnote line h
  · obtain ⟨r, -, rfl⟩ := List.mem_map.mp h
    have hstart : IsComment "# ".toList := .literal (by decide)
    exact hstart.append _

theorem comment_sourceLine {Field : Type} (s : Setting Field) : IsComment (sourceLine s) := by
  unfold sourceLine
  split_ifs
  · have hstart : IsComment "  # Never accepted on the command line. May also be supplied as ".toList :=
      .literal (by decide)
    exact (hstart.append _).append _
  · have hstart : IsComment "  # Flag: --".toList := .literal (by decide)
    exact ((((hstart.append _).append _).append _).append _).append _

/-- The scan over the settings of one section -/
theorem foldl_settings {part : Text} {acc : List RetiredSetting} {settings : List (Setting W.Field)}
    (hsettings : ∀ s ∈ settings, s ∈ W.fileSettings ∧ sectionOf s.key.toList = part)
    (hacc : ∀ r ∈ acc, FoundIn V W arch cfg r) :
    ∀ r ∈ ((settings.flatMap fun s => writeSetting arch s ((W.valuesFrom cfg s.flag).getD [])).foldl
      (scanLine V.knows) (part, acc)).2, FoundIn V W arch cfg r := by
  induction settings generalizing acc with
  | nil => exact hacc
  | cons s settings ih =>
    obtain ⟨hs, hpart⟩ := hsettings s List.mem_cons_self
    have hrest : ∀ s ∈ settings, s ∈ W.fileSettings ∧ sectionOf s.key.toList = part := fun s hs =>
      hsettings s (List.mem_cons_of_mem _ hs)
    have hkey := dotted_key hs
    rw [hpart] at hkey
    have husage : IsComment "  # ".toList := .literal (by decide)
    rw [List.flatMap_cons, List.foldl_append]
    unfold writeSetting
    rw [List.foldl_cons, scanLine_comment ((husage.append _).append _), List.foldl_cons,
      scanLine_comment (comment_sourceLine s), List.foldl_cons, List.foldl_nil, valuesFrom_eq hs,
      Option.getD_some, scanLine_setting hkey.part.1.1 hkey.leaf (oneLine_settingValue hs).solid,
      ← hkey.split]
    split_ifs with hknown
    · exact ih hrest hacc
    · refine ih hrest fun r hr => ?_
      rcases List.mem_append.mp hr with hr | hr
      · exact hacc r hr
      · rw [List.mem_singleton.mp hr]
        exact ⟨eq_false_of_ne_true hknown, s, hs, rfl⟩

theorem foldl_sections {state : Text × List RetiredSetting} {parts : List String}
    (hstate : ∀ r ∈ state.2, FoundIn V W arch cfg r) :
    ∀ r ∈ ((parts.flatMap (W.renderSection arch (W.valuesFrom cfg))).foldl
      (scanLine V.knows) state).2, FoundIn V W arch cfg r := by
  induction parts generalizing state with
  | nil => exact hstate
  | cons part parts ih =>
    rw [List.flatMap_cons, List.foldl_append]
    refine ih ?_
    unfold renderSection
    dsimp only
    split_ifs with hnone
    · exact hstate
    have hsettings : ∀ s ∈ W.settingsInSection part,
        s ∈ W.fileSettings ∧ sectionOf s.key.toList = part.toList := fun s hs =>
      ⟨List.mem_of_mem_filter hs, of_decide_eq_true (List.mem_filter.mp hs).2⟩
    obtain ⟨s, hs⟩ := List.exists_mem_of_ne_nil _ hnone
    have hkey := dotted_key (hsettings s hs).1
    rw [(hsettings s hs).2] at hkey
    rw [List.foldl_cons, scanLine_blank, List.foldl_cons, scanLine_header hkey.part.1]
    exact foldl_settings hsettings hstate

/-- **In a written file the scan finds settings of the version that wrote it, and no others.** -/
theorem mem_retiredIn_fileText (hsound : W.Sound opts.retired) :
    ∀ r ∈ V.retiredIn (fileText (W.fileLines arch (W.valuesFrom cfg) opts)), FoundIn V W arch cfg r := by
  intro r hr
  unfold retiredIn at hr
  have hlines : ∀ line ∈ renderRetired opts.retired ++ [[]], line = [] ∨ IsComment line := by
    intro line hline
    rcases List.mem_append.mp hline with h | h
    · exact comment_renderRetired _ line h
    · exact .inl (List.mem_singleton.mp h)
  rw [List.mem_mergeSort, splitOn_fileText (line_fileLines hsound)] at hr
  unfold fileLines at hr
  rw [List.append_assoc, List.append_assoc, List.foldl_append, foldl_comments comment_headerLines,
    List.foldl_append, foldl_comments hlines] at hr
  exact foldl_sections (fun _ h => absurd h List.not_mem_nil) r hr

/-! ## What the block has -/

/-- The first word of a comment -/
def firstWord (line : Text) : Text := (line.drop 2).takeWhile (· ≠ ' ')

theorem firstWord_append {start : Text} (hstart : ' ' ∈ start.drop 2) (more : Text) :
    firstWord (start ++ more) = firstWord start := by
  have hlength : 2 ≤ start.length := by
    by_contra h
    rw [List.drop_eq_nil_of_le (by omega)] at hstart
    cases hstart
  unfold firstWord
  rw [List.drop_append_of_le_length hlength, List.takeWhile_append, if_neg]
  intro h
  have hall := List.takeWhile_eq_self_iff.mp (List.takeWhile_prefix _ |>.eq_of_length h) ' ' hstart
  exact absurd rfl (of_decide_eq_true hall)

theorem firstWord_retiredLine {key part leaf : Text} (value : Text) (hkey : Dotted key part leaf) :
    (firstWord (retiredLine key value)).getLast? = some ':' := by
  have hplain : ∀ c ∈ key ++ [':'], decide (c ≠ ' ') = true := by
    intro c hc
    refine decide_eq_true fun heq => ?_
    subst heq
    rw [hkey.split] at hc
    simp only [List.mem_append, List.mem_cons, List.not_mem_nil, or_false] at hc
    rcases hc with (hc | hc | hc) | hc
    · exact absurd (hkey.part.1.2 _ hc).1 (by decide)
    · cases hc
    · exact absurd (hkey.leaf.2 _ hc).1 (by decide)
    · cases hc
  have hline : (retiredLine key value).drop 2 = (key ++ [':']) ++ ' ' :: value := by
    show key ++ (": ".toList ++ value) = _
    rw [List.append_assoc]
    rfl
  unfold firstWord
  rw [hline, List.takeWhile_append_of_pos hplain, List.takeWhile_cons_of_neg (by decide),
    List.append_nil, List.getLast?_concat]

theorem retiredLine_inj {key value key' value' : Text} (hkey : ':' ∉ key) (hkey' : ':' ∉ key')
    (h : retiredLine key value = retiredLine key' value') : key = key' ∧ value = value' := by
  have hbody : key ++ ':' :: (' ' :: value) = key' ++ ':' :: (' ' :: value') := by
    have hdrop := congrArg (List.drop 2) h
    exact hdrop
  have hcut := congrArg (cut ':') hbody
  rw [cut_append hkey, cut_append hkey'] at hcut
  obtain ⟨hk, hv⟩ := Prod.mk.inj (Option.some.inj hcut)
  exact ⟨hk, (List.cons.inj hv).2⟩

theorem colon_dotted {key part leaf : Text} (hkey : Dotted key part leaf) : ':' ∉ key := by
  intro h
  rw [hkey.split] at h
  rcases List.mem_append.mp h with h | h
  · exact (hkey.part.1.2 _ h).2.1 rfl
  rcases List.mem_cons.mp h with h | h
  · cases h
  · exact (hkey.leaf.2 _ h).2.1 rfl

/-- No line of the header reads as a retired setting. -/
theorem firstWord_headerLines : ∀ line ∈ headerLines opts, (firstWord line).getLast? ≠ some ':' := by
  unfold headerLines
  simp only [List.forall_mem_cons]
  refine ⟨by decide, ?_, by decide, by decide, by decide, by decide, by decide, by decide, by decide,
    by decide, fun _ h => nomatch h⟩
  rw [List.append_assoc, List.append_assoc, firstWord_append (by decide)]
  decide

/-- **What stands in the block is what the run was asked to keep.** -/
theorem mem_of_standsCommented {key value : Text} (hsound : W.Sound opts.retired)
    (h : StandsCommented (fileText (W.fileLines arch (W.valuesFrom cfg) opts)) key value) :
    ⟨key, value⟩ ∈ opts.retired := by
  obtain ⟨⟨part, leaf, hkey⟩, before, after, hlines, hmem⟩ := h
  have hword := firstWord_retiredLine value hkey
  have hhash : (retiredLine key value).head? = some '#' := rfl
  rw [splitOn_fileText (line_fileLines hsound)] at hlines
  have hall : retiredLine key value ∈ W.fileLines arch (W.valuesFrom cfg) opts ++ [[]] := by
    rw [hlines]
    exact List.mem_append_right _ (List.mem_cons_of_mem _ hmem)
  rcases List.mem_append.mp hall with hall | hall
  · rcases mem_fileLines hall with h | h | ⟨s, hs, h⟩ | h | ⟨r, hr, h⟩
    · exact absurd hword (firstWord_headerLines _ h)
    · rw [h] at hhash
      cases hhash
    · exfalso
      rcases h with h | h
      · obtain ⟨c, rest, hcons, -, hne⟩ := (dotted_key hs).part.1.head
        rw [h, hcons] at hhash
        exact hne (Option.some.inj hhash)
      · -- every line of a setting is indented
        unfold writeSetting at h
        simp only [List.mem_cons, List.not_mem_nil, or_false] at h
        rcases h with h | h | h
        · rw [h] at hhash
          cases hhash
        · rw [h] at hhash
          unfold sourceLine at hhash
          split_ifs at hhash <;> cases hhash
        · rw [h] at hhash
          cases hhash
    · have hnote : ∀ line ∈ retiredNote, (firstWord line).getLast? ≠ some ':' := by decide
      exact absurd hword (hnote _ h)
    · obtain ⟨hk, hv⟩ := retiredLine_inj (colon_dotted hkey) (hsound r hr).1 h
      rw [hk, hv]
      exact hr
  · rw [List.mem_singleton.mp hall] at hhash
    cases hhash

theorem standsCommented_of_mem {r : RetiredSetting} (hsound : W.Sound opts.retired) {part leaf : Text}
    (hkey : Dotted r.key part leaf) (hr : r ∈ opts.retired) :
    StandsCommented (fileText (W.fileLines arch (W.valuesFrom cfg) opts)) r.key r.value := by
  have hsome : opts.retired ≠ [] := List.ne_nil_of_mem hr
  refine ⟨⟨part, leaf, hkey⟩, headerLines opts ++ W.sectionOrder.flatMap
    (W.renderSection arch (W.valuesFrom cfg)) ++ [[]], retiredNote.tail ++
      (opts.retired.map fun setting => retiredLine setting.key setting.value) ++ [[]], ?_,
    List.mem_append_left _ (List.mem_append_right _ (List.mem_map_of_mem
      (f := fun setting => retiredLine setting.key setting.value) hr))⟩
  rw [splitOn_fileText (line_fileLines hsound)]
  unfold fileLines renderRetired
  rw [if_neg hsome]
  show _ ++ (_ ++ [] :: (retiredHeading :: retiredNote.tail ++ _)) ++ [[]] = _
  simp only [List.append_assoc, List.cons_append, List.nil_append]

/-! ## Runs -/

theorem renderFile_ok {file : Text} (h : W.renderFile arch (W.valuesFrom cfg) opts = .ok file) :
    file = fileText (W.fileLines arch (W.valuesFrom cfg) opts) := by
  unfold renderFile at h
  split_ifs at h
  exact (Except.ok.inj h).symm

/-- What a run of `update` writes. -/
theorem writeConfig_ok {generatedAt : Time} {existing file : Text} {keys : List Text}
    (h : W.writeConfig arch cfg generatedAt (some existing) = .ok (file, keys)) :
    W.renderFile arch (W.valuesFrom cfg) ⟨generatedAt, .update, W.retiredIn existing⟩ = .ok file := by
  unfold writeConfig at h
  dsimp only [Option.elim] at h
  split at h
  · rename_i body hbody
    cases h
    exact hbody
  · cases h

theorem writeConfig_known (hknown : W.unknownSections = []) (generatedAt : Time) (existing : Text) :
    W.writeConfig arch cfg generatedAt (some existing) = .ok
      (fileText (W.fileLines arch (W.valuesFrom cfg) ⟨generatedAt, .update, W.retiredIn existing⟩),
        (W.retiredIn existing).map RetiredSetting.key) := by
  unfold writeConfig renderFile
  dsimp only [Option.elim]
  rw [if_pos hknown]

/-- What is found in a written file may be asked to be kept. -/
theorem sound_retiredIn {file : Text} (hfile : Written file) : V.Sound (V.retiredIn file) := by
  obtain ⟨W, arch, cfg, opts, hsound, hrender⟩ := hfile
  intro r hr
  rw [renderFile_ok hrender] at hr
  obtain ⟨hunknown, s, hs, rfl⟩ := mem_retiredIn_fileText hsound r hr
  have hkey := dotted_key hs
  exact ⟨colon_dotted hkey, dotted_line hkey, (oneLine_settingValue hs).line, hunknown⟩

theorem head_writeSetting {s : Setting W.Field} {value : Text} :
    ∀ line ∈ writeSetting arch s value, line.head? = some ' ' := by
  unfold writeSetting
  simp only [List.forall_mem_cons]
  refine ⟨rfl, ?_, rfl, fun _ h => nomatch h⟩
  unfold sourceLine
  split_ifs <;> rfl

/-- **Every setting of the version that wrote a file is active in it.** -/
theorem standsActive_of_mem {s : Setting W.Field} (hsound : W.Sound opts.retired)
    (hknown : W.unknownSections = []) (hs : s ∈ W.fileSettings) :
    StandsActive (fileText (W.fileLines arch (W.valuesFrom cfg) opts)) s.key.toList
      (scalar arch s (W.settingValue cfg s)) := by
  have hkey := dotted_key hs
  obtain ⟨part, hpart, hsection⟩ : ∃ part ∈ W.sectionOrder, part.toList = sectionOf s.key.toList := by
    by_contra hnone
    have hmem : s.key ∈ W.unknownSections := by
      refine List.mem_map_of_mem (f := Setting.key) (List.mem_filter.mpr ⟨hs, ?_⟩)
      rw [Bool.not_eq_true', ← Bool.not_eq_true, List.any_eq_true]
      rintro ⟨part, hmem, heq⟩
      exact hnone ⟨part, hmem, of_decide_eq_true heq⟩
    rw [hknown] at hmem
    cases hmem
  have hin : s ∈ W.settingsInSection part :=
    List.mem_filter.mpr ⟨hs, decide_eq_true hsection.symm⟩
  obtain ⟨sectionsBefore, sectionsAfter, horder⟩ := List.append_of_mem hpart
  obtain ⟨settingsBefore, settingsAfter, hsettings⟩ := List.append_of_mem hin
  let write := fun s : Setting W.Field => writeSetting arch s ((W.valuesFrom cfg s.flag).getD [])
  refine ⟨sectionOf s.key.toList, leafKey s.key.toList,
    headerLines opts ++ sectionsBefore.flatMap (W.renderSection arch (W.valuesFrom cfg)) ++ [[]],
    settingsBefore.flatMap write ++ ["  # ".toList ++ capitalise s.usage.toList ++ ['.'], sourceLine s],
    settingsAfter.flatMap write ++ (sectionsAfter.flatMap (W.renderSection arch (W.valuesFrom cfg)) ++
      renderRetired opts.retired ++ [[]]), hkey, oneLine_settingValue hs, ?_, ?_⟩
  · intro line hline
    rcases List.mem_append.mp hline with h | h
    · obtain ⟨s', -, h⟩ := List.mem_flatMap.mp h
      exact head_writeSetting line h
    · have hwritten : line ∈ writeSetting arch s [] :=
        List.mem_append_left [settingLine (leafKey s.key.toList) (scalar arch s [])] h
      exact head_writeSetting line hwritten
  · have hne : W.settingsInSection part ≠ [] := List.ne_nil_of_mem hin
    have hwrite : write s = ["  # ".toList ++ capitalise s.usage.toList ++ ['.'], sourceLine s,
        settingLine (leafKey s.key.toList) (scalar arch s (W.settingValue cfg s))] := by
      show writeSetting arch s _ = _
      rw [valuesFrom_eq hs, Option.getD_some]
      rfl
    have hrender : W.renderSection arch (W.valuesFrom cfg) part =
        [] :: (sectionOf s.key.toList ++ [':']) ::
          (settingsBefore.flatMap write ++ (write s ++ settingsAfter.flatMap write)) := by
      unfold renderSection
      dsimp only
      rw [if_neg hne, hsettings, hsection, List.flatMap_append, List.flatMap_cons]
    rw [splitOn_fileText (line_fileLines hsound)]
    unfold fileLines
    rw [horder, List.flatMap_append, List.flatMap_cons, hrender, hwrite]
    simp only [List.append_assoc, List.cons_append, List.nil_append]

end Version

/-- A run leaves a written file. -/
theorem Update.written {file file' : Text} (h : Update file file') (hfile : Written file) :
    Written file' := by
  obtain ⟨V, arch, cfg, generatedAt, keys, hrun⟩ := h
  exact ⟨V, arch, cfg, _, Version.sound_retiredIn hfile, Version.writeConfig_ok hrun⟩

/-- Any number of runs leave a written file. -/
theorem written_of_updates {file file' : Text} (hfile : Written file)
    (hruns : Relation.ReflTransGen Update file file') : Written file' := by
  induction hruns with
  | refl => exact hfile
  | tail _ hlast ih => exact hlast.written ih

section Run

variable {V : Version} {arch : Arch} {cfg : V.Config} {generatedAt : Time} {file file' : Text}
  {keys : List Text}

/-- **A run keeps what is active and not known.** -/
theorem standsCommented_of_active (hfile : Written file)
    (hrun : V.writeConfig arch cfg generatedAt (some file) = .ok (file', keys)) {key value : Text}
    (hunknown : V.knows key = false) (h : StandsActive file key value) :
    StandsCommented file' key value := by
  have hmem := Version.mem_retiredIn_of_active h hunknown
  obtain ⟨part, leaf, -, -, -, hkey, -⟩ := h
  rw [Version.renderFile_ok (Version.writeConfig_ok hrun)]
  exact Version.standsCommented_of_mem (Version.sound_retiredIn hfile) (r := ⟨key, value⟩) hkey hmem

/-- **A run drops what is in the block and not known.** -/
theorem not_stands_of_commented (hfile : Written file)
    (hrun : V.writeConfig arch cfg generatedAt (some file) = .ok (file', keys)) {key value : Text}
    (hunknown : V.knows key = false) (h : StandsCommented file key value) :
    ¬ ∃ value', Stands file' key value' := by
  have hsound : V.Sound (V.retiredIn file) := Version.sound_retiredIn hfile
  have hfile' := Version.renderFile_ok (Version.writeConfig_ok hrun)
  rintro ⟨value', h' | h'⟩
  · -- what is active in a file of this version, this version knows
    have hmem := Version.mem_retiredIn_of_active h' hunknown
    rw [hfile'] at hmem
    obtain ⟨-, s, hs, hr⟩ := Version.mem_retiredIn_fileText hsound _ hmem
    have hknows : V.knows key = true := by
      rw [(RetiredSetting.mk.inj hr).1]
      exact List.any_eq_true.mpr ⟨s, hs, decide_eq_true rfl⟩
    rw [hunknown] at hknows
    cases hknows
  · rw [hfile'] at h'
    have hmem := Version.mem_of_standsCommented hsound h'
    obtain ⟨W, archW, cfgW, opts, hsoundW, hrender⟩ := hfile
    rw [Version.renderFile_ok hrender] at hmem h
    -- the scan found it among the settings of the writer, who retired it
    obtain ⟨-, s, hs, hr⟩ := Version.mem_retiredIn_fileText hsoundW _ hmem
    have hunknownW := (hsoundW _ (Version.mem_of_standsCommented hsoundW h)).2.2.2
    have hknows : W.knows key = true := by
      rw [(RetiredSetting.mk.inj hr).1]
      exact List.any_eq_true.mpr ⟨s, hs, decide_eq_true rfl⟩
    rw [hunknownW] at hknows
    cases hknows

/-- **A run of `update` keeps every setting its version does not know if and only if its version knows
every setting of the block.** -/
theorem update_kept_iff {file₀ : Text} (hfile : Written file₀)
    (hruns : Relation.ReflTransGen Update file₀ file)
    (hrun : V.writeConfig arch cfg generatedAt (some file) = .ok (file', keys)) :
    (∀ key value, V.knows key = false → Stands file key value → Stands file' key value) ↔
      ∀ key value, StandsCommented file key value → V.knows key = true := by
  have hwritten := written_of_updates hfile hruns
  constructor
  · intro hkept key value hblock
    by_contra hknows
    have hunknown := eq_false_of_ne_true hknows
    exact not_stands_of_commented hwritten hrun hunknown hblock
      ⟨value, hkept key value hunknown (.inr hblock)⟩
  · intro hblock key value hunknown hstands
    rcases hstands with hactive | hcommented
    · exact .inr (standsCommented_of_active hwritten hrun hunknown hactive)
    · rw [hblock key value hcommented] at hunknown
      cases hunknown

end Run

/-! ## A setting that is gone -/

namespace Retirement

/-- `server.port` -/
def port {Field : Type} (f : Field) : Setting Field :=
  ⟨"port", "server.port", some f, .int, .int 8080, "port to listen on", [.server], false⟩

/-- `server.greeting`, which the older version has. -/
def greeting : Setting Bool :=
  ⟨"greeting", "server.greeting", some true, .string, .string "Mahlzeit", "text of the greeting",
    [.server], false⟩

theorem isWord_of_forall {w : Text} (hne : w ≠ [])
    (h : (w.all fun c => !isSpace c && c != ':' && c != '#') = true) : IsWord w := by
  refine ⟨hne, fun c hc => ?_⟩
  have hc := List.all_eq_true.mp h c hc
  rw [Bool.and_eq_true, Bool.and_eq_true, Bool.not_eq_true', bne_iff_ne, bne_iff_ne] at hc
  exact ⟨hc.1.1, hc.1.2, hc.2⟩

theorem dotted_port : Dotted "server.port".toList "server".toList "port".toList :=
  ⟨by decide, ⟨isWord_of_forall (by decide) (by decide), by decide⟩,
    isWord_of_forall (by decide) (by decide)⟩

theorem dotted_greeting : Dotted "server.greeting".toList "server".toList "greeting".toList :=
  ⟨by decide, ⟨isWord_of_forall (by decide) (by decide), by decide⟩,
    isWord_of_forall (by decide) (by decide)⟩

def older : Version where
  Field := Bool
  fields := inferInstance
  type f := if f then .string else .int
  settings := [port false, greeting]
  sectionOrder := ["server"]
  flags := by decide
  keys := by
    simp only [List.forall_mem_cons]
    exact ⟨fun _ => ⟨_, _, dotted_port⟩, fun _ => ⟨_, _, dotted_greeting⟩, fun _ h => nomatch h⟩
  kinds := by
    simp only [List.forall_mem_cons]
    refine ⟨?_, ?_, fun _ h => nomatch h⟩
    · intro f hf
      cases hf
      rfl
    · intro f hf
      cases hf
      rfl
  defaults := by decide
  lines := by decide

def newer : Version where
  Field := Unit
  fields := inferInstance
  type _ := .int
  settings := [port ()]
  sectionOrder := ["server"]
  flags := by decide
  keys := by
    simp only [List.forall_mem_cons]
    exact ⟨fun _ => ⟨_, _, dotted_port⟩, fun _ h => nomatch h⟩
  kinds := by
    simp only [List.forall_mem_cons]
    exact ⟨fun _ _ => rfl, fun _ h => nomatch h⟩
  defaults := by decide
  lines := by decide

def olderConfig : older.Config
  | true => "Moin".toList
  | false => (80 : Int64)

def newerConfig : newer.Config := fun _ => (80 : Int64)

def installed : Text :=
  fileText (older.fileLines .amd64 (older.valuesFrom olderConfig) ⟨0, .install, []⟩)

/-- What the newer version makes of a file. -/
def updated (file : Text) : Text :=
  fileText (newer.fileLines .amd64 (newer.valuesFrom newerConfig) ⟨0, .update, newer.retiredIn file⟩)

theorem written_installed : Written installed :=
  ⟨older, .amd64, olderConfig, ⟨0, .install, []⟩, (fun _ h => absurd h List.not_mem_nil),
    if_pos (by decide)⟩

theorem run_updated (file : Text) : newer.writeConfig .amd64 newerConfig 0 (some file) =
    .ok (updated file, (newer.retiredIn file).map RetiredSetting.key) :=
  Version.writeConfig_known (by decide) 0 file

theorem greeting_installed : StandsActive installed greeting.key.toList
    (scalar .amd64 greeting (older.settingValue olderConfig greeting)) :=
  Version.standsActive_of_mem (fun _ h => nomatch h) (by decide)
    (List.mem_filter.mpr ⟨List.mem_cons_of_mem _ List.mem_cons_self, by decide⟩)

end Retirement

open Retirement

theorem update_kept_once :
    (∀ key value, newer.knows key = false → Stands installed key value →
        Stands (updated installed) key value) ↔
      ∀ key value, StandsCommented installed key value → newer.knows key = true :=
  update_kept_iff written_installed .refl (run_updated installed)

/-- The second run of the newer version drops what the first one kept. -/
theorem update_loses : ¬ ∀ (V : Version) (arch : Arch) (cfg : V.Config) (generatedAt : Time)
    (file₀ file file' : Text) (keys : List Text), Written file₀ →
    Relation.ReflTransGen Update file₀ file →
    V.writeConfig arch cfg generatedAt (some file) = .ok (file', keys) →
    ∀ key value, V.knows key = false → Stands file key value → Stands file' key value := by
  intro hall
  have hunknown : newer.knows greeting.key.toList = false := by decide
  have hfirst : Update installed (updated installed) := ⟨newer, .amd64, newerConfig, 0, _, run_updated _⟩
  have hcommented := standsCommented_of_active written_installed (run_updated installed) hunknown
    greeting_installed
  have hkept := hall newer .amd64 newerConfig 0 installed _ _ _ written_installed
    (Relation.ReflTransGen.single hfirst) (run_updated (updated installed)) _ _ hunknown (.inr hcommented)
  exact not_stands_of_commented (hfirst.written written_installed) (run_updated _) hunknown hcommented
    ⟨_, hkept⟩

end Doenerstag
