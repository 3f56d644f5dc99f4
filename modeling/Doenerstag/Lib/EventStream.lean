import Mathlib.Data.List.Infix

/-!
# Event streams

Server-sent events, as a browser reads them: the characters come in one after the other, a line ends with LF, CR
or both, and an empty line dispatches what the lines before it have put into the buffers. What stands there when
the characters end is not dispatched.

* `Reader.step`, `Reader.run` — a character, and a text.
* `Block` — a comment, or an event with one line of data, as a server writes it.
* `run_block` — **a block that has come in whole dispatches its event.**
* `dispatched_cut` — **one that is cut off dispatches nothing.**
* `run_cut` — what a text of blocks dispatches, wherever it is cut off: the events of the blocks before.
-/

namespace EventStream

structure Message where
  type : List Char
  data : List Char
  /-- what an `id` field has set -/
  lastEventID : List Char
  deriving DecidableEq, Repr

/-- A reader: its buffers, the line that it is in, and the events that it has dispatched. -/
structure Reader where
  type : List Char
  data : List Char
  lastEventID : List Char
  line : List Char
  /-- the last character was a CR, and a LF that follows ends no other line -/
  afterCR : Bool
  dispatched : List Message
  deriving DecidableEq, Repr

namespace Reader

def start : Reader :=
  { type := [], data := [], lastEventID := [], line := [], afterCR := false, dispatched := [] }

/-- A field. `retry` says how long to wait before a new connection, which no event shows. -/
def setField (r : Reader) (name value : List Char) : Reader :=
  if name = "event".toList then { r with type := value }
  else if name = "data".toList then { r with data := r.data ++ value ++ ['\n'] }
  else if name = "id".toList then
    if '\x00' ∈ value then r else { r with lastEventID := value }
  else r

/-- A line is a field name up to the first colon, and a value with or without a blank before it. -/
def readField (r : Reader) (line : List Char) : Reader :=
  let value := (line.dropWhile (· ≠ ':')).tail
  r.setField (line.takeWhile (· ≠ ':')) (if value.head? = some ' ' then value.tail else value)

def dispatch (r : Reader) : Reader :=
  if r.data = [] then { r with type := [] }
  else
    let message : Message :=
      { type := if r.type = [] then "message".toList else r.type
        data := if r.data.getLast? = some '\n' then r.data.dropLast else r.data
        lastEventID := r.lastEventID }
    { r with type := [], data := [], dispatched := r.dispatched ++ [message] }

/-- A line has ended. One that begins with a colon is a comment. -/
def endLine (r : Reader) : Reader :=
  let next := { r with line := [], afterCR := false }
  match r.line with
  | [] => next.dispatch
  | ':' :: _ => next
  | line => next.readField line

def step (r : Reader) (c : Char) : Reader :=
  if c = '\n' then if r.afterCR then { r with afterCR := false } else r.endLine
  else if c = '\r' then { r.endLine with afterCR := true }
  else { r with line := r.line ++ [c], afterCR := false }

def run (r : Reader) (text : List Char) : Reader := text.foldl step r

/-- The reader is between two blocks. -/
def Clean (r : Reader) : Prop := r.type = [] ∧ r.data = [] ∧ r.line = [] ∧ r.afterCR = false

end Reader

/-- The events of a stream. A byte order mark before it is no part of it. -/
def messages : List Char → List Message
  | '\uFEFF' :: text => (Reader.start.run text).dispatched
  | text => (Reader.start.run text).dispatched

/-- What a server writes at once -/
inductive Block where
  | comment (text : List Char)
  | event (type data : List Char)
  deriving DecidableEq, Repr

namespace Block

/-- The text of a block, up to the line feed that dispatches it -/
def lines : Block → List Char
  | comment text => ':' :: text ++ ['\n']
  | event type data => "event: ".toList ++ type ++ "\ndata: ".toList ++ data ++ ['\n']

def text (b : Block) : List Char := b.lines ++ ['\n']

/-- It stands on the lines that it is written on. -/
def Plain : Block → Prop
  | comment text => '\n' ∉ text ∧ '\r' ∉ text
  | event type data => type ≠ [] ∧ ('\n' ∉ type ∧ '\r' ∉ type) ∧ '\n' ∉ data ∧ '\r' ∉ data

def event? : Block → Option (List Char × List Char)
  | comment _ => none
  | event type data => some (type, data)

end Block

/-- The events of blocks, to a reader with this last event ID. -/
def dispatches (lastEventID : List Char) (blocks : List Block) : List Message :=
  blocks.filterMap fun b => b.event?.map fun e => { type := e.1, data := e.2, lastEventID }

namespace Reader

variable {r : Reader} {line text : List Char}

@[simp] theorem run_nil (r : Reader) : r.run [] = r := rfl

@[simp] theorem run_cons (r : Reader) (c : Char) (text : List Char) : r.run (c :: text) = (r.step c).run text := rfl

@[simp] theorem run_append (r : Reader) (text text' : List Char) : r.run (text ++ text') = (r.run text).run text' :=
  List.foldl_append

/-! ## Lines -/

theorem step_plain {c : Char} (hlf : c ≠ '\n') (hcr : c ≠ '\r') :
    r.step c = { r with line := r.line ++ [c], afterCR := false } := by
  unfold step
  rw [if_neg hlf, if_neg hcr]

theorem step_lf (h : r.afterCR = false) : r.step '\n' = r.endLine := by
  unfold step
  rw [if_pos rfl, h]
  rfl

/-- The characters of a line are collected. -/
theorem run_plain (hlf : '\n' ∉ text) (hcr : '\r' ∉ text) (h : r.afterCR = false) :
    r.run text = { r with line := r.line ++ text } := by
  induction text generalizing r with
  | nil =>
    rw [run_nil, List.append_nil]
  | cons c rest ih =>
    have hc : c ≠ '\n' := fun heq => hlf (heq ▸ List.mem_cons_self)
    have hc' : c ≠ '\r' := fun heq => hcr (heq ▸ List.mem_cons_self)
    rw [run_cons, step_plain hc hc', ih (fun hin => hlf (List.mem_cons_of_mem c hin))
      (fun hin => hcr (List.mem_cons_of_mem c hin)) rfl]
    show { r with line := (r.line ++ [c]) ++ rest, afterCR := false } = _
    rw [List.append_assoc, ← h]
    rfl

/-- A line that has come in whole is read. -/
theorem run_line (hlf : '\n' ∉ line) (hcr : '\r' ∉ line) (hline : r.line = []) (hafter : r.afterCR = false) :
    r.run (line ++ ['\n']) = { r with line }.endLine := by
  rw [run_append, run_plain hlf hcr hafter, hline, List.nil_append]
  exact step_lf (r := { r with line }) hafter

/-- A field is read by its name. -/
theorem readField_named {name : List Char} (hname : ':' ∉ name) (value : List Char) :
    r.readField (name ++ ':' :: ' ' :: value) = r.setField name value := by
  have hall : ∀ c ∈ name, decide (c ≠ ':') = true := fun c hc =>
    decide_eq_true fun heq => hname (heq ▸ hc)
  unfold readField
  rw [List.takeWhile_append_of_pos hall, List.dropWhile_append_of_pos hall]
  simp

theorem endLine_field {name value : List Char} (hne : name ≠ []) (hname : ':' ∉ name)
    (hline : r.line = name ++ ':' :: ' ' :: value) :
    r.endLine = { r with line := [], afterCR := false }.setField name value := by
  obtain ⟨c, rest, rfl⟩ := List.exists_cons_of_ne_nil hne
  have hc : c ≠ ':' := fun heq => hname (heq ▸ List.mem_cons_self)
  rw [← readField_named hname]
  unfold endLine
  rw [hline]
  split
  · rename_i heq
    cases heq
  · rename_i heq
    exact absurd (List.cons.inj heq).1 hc
  · rfl

/-! ## What has been dispatched stays -/

theorem dispatched_dispatch (r : Reader) : r.dispatched <+: r.dispatch.dispatched := by
  unfold dispatch
  by_cases hdata : r.data = []
  · rw [if_pos hdata]
  · rw [if_neg hdata]
    exact List.prefix_append _ _

theorem dispatched_setField (r : Reader) (name value : List Char) :
    (r.setField name value).dispatched = r.dispatched := by
  unfold setField
  split_ifs <;> rfl

theorem dispatched_endLine (r : Reader) : r.dispatched <+: r.endLine.dispatched := by
  unfold endLine
  dsimp only
  split
  · exact dispatched_dispatch { r with line := [], afterCR := false }
  · exact List.prefix_rfl
  · unfold readField
    rw [dispatched_setField]

theorem dispatched_step (r : Reader) (c : Char) : r.dispatched <+: (r.step c).dispatched := by
  unfold step
  split_ifs
  · exact List.prefix_rfl
  · exact dispatched_endLine r
  · exact dispatched_endLine r
  · exact List.prefix_rfl

theorem dispatched_run (r : Reader) (text : List Char) : r.dispatched <+: (r.run text).dispatched := by
  induction text generalizing r with
  | nil => exact List.prefix_rfl
  | cons c rest ih => exact (dispatched_step r c).trans (ih (r.step c))

/-! ## Blocks -/

variable {b : Block}

/-- A reader that has read the lines of a block -/
def pending (r : Reader) : Block → Reader
  | .comment _ => r
  | .event type data => { r with type, data := data ++ ['\n'] }

theorem run_comment (hclean : r.Clean) (hlf : '\n' ∉ text) (hcr : '\r' ∉ text) :
    r.run (':' :: text ++ ['\n']) = r := by
  obtain ⟨-, -, hline, hafter⟩ := hclean
  rw [run_line (by simp [hlf]) (by simp [hcr]) hline hafter]
  show { r with line := [], afterCR := false } = r
  rw [← hline, ← hafter]

theorem run_field {name value : List Char} (hline : r.line = []) (hafter : r.afterCR = false) (hne : name ≠ [])
    (hname : ∀ c ∈ name, c.isAlpha) (hvalue : '\n' ∉ value ∧ '\r' ∉ value) :
    r.run (name ++ ':' :: ' ' :: value ++ ['\n']) = r.setField name value := by
  have hnot : ∀ c, c.isAlpha = false → c ∉ name := fun c hc hin => by
    rw [hname c hin] at hc
    cases hc
  have hlf : '\n' ∉ name ++ ':' :: ' ' :: value := by simp [hnot '\n' rfl, hvalue.1]
  have hcr : '\r' ∉ name ++ ':' :: ' ' :: value := by simp [hnot '\r' rfl, hvalue.2]
  rw [run_line hlf hcr hline hafter, endLine_field hne (hnot ':' rfl) rfl, ← hafter, ← hline]

/-- The lines of a block fill the buffers, and dispatch nothing. -/
theorem run_lines (hclean : r.Clean) (hplain : b.Plain) : r.run b.lines = r.pending b := by
  cases b with
  | comment text => exact run_comment hclean hplain.1 hplain.2
  | event type data =>
    obtain ⟨-, htype, hdata⟩ := hplain
    obtain ⟨-, hempty, hline, hafter⟩ := hclean
    have hsplit : (Block.event type data).lines =
        ("event".toList ++ ':' :: ' ' :: type ++ ['\n']) ++ ("data".toList ++ ':' :: ' ' :: data ++ ['\n']) := by
      show ("event".toList ++ [':', ' ']) ++ type ++ ('\n' :: "data".toList ++ [':', ' ']) ++ data ++ ['\n'] = _
      simp only [List.append_assoc, List.cons_append, List.nil_append]
    have hletters : ∀ name ∈ ["event".toList, "data".toList], name ≠ [] ∧ (name.all fun c => c.isAlpha) := by decide
    have hevent := hletters "event".toList List.mem_cons_self
    have hdatum := hletters "data".toList (List.mem_cons_of_mem _ List.mem_cons_self)
    rw [hsplit, run_append, run_field hline hafter hevent.1 (List.all_eq_true.mp hevent.2) htype]
    have hset : r.setField "event".toList type = { r with type } := if_pos rfl
    rw [hset, run_field (r := { r with type }) hline hafter hdatum.1 (List.all_eq_true.mp hdatum.2) hdata]
    show { r with type, data := r.data ++ data ++ ['\n'] } = _
    rw [hempty, List.nil_append]
    rfl

/-- **A block that has come in whole dispatches its event.** -/
theorem run_block (hclean : r.Clean) (hplain : b.Plain) :
    r.run b.text = { r with dispatched := r.dispatched ++ dispatches r.lastEventID [b] } := by
  rw [Block.text, run_append, run_lines hclean hplain]
  obtain ⟨htype, hdata, hline, hafter⟩ := hclean
  cases b with
  | comment text =>
    show r.step '\n' = _
    rw [step_lf hafter]
    obtain ⟨type, data, lastEventID, line, afterCR, dispatched⟩ := r
    obtain rfl : type = [] := htype
    obtain rfl : data = [] := hdata
    obtain rfl : line = [] := hline
    obtain rfl : afterCR = false := hafter
    exact congrArg (Reader.mk [] [] lastEventID [] false) (List.append_nil dispatched).symm
  | event type data =>
    show ({ r with type, data := data ++ ['\n'] } : Reader).step '\n' = _
    rw [step_lf (r := { r with type, data := data ++ ['\n'] }) hafter]
    obtain ⟨t, d, lastEventID, line, afterCR, dispatched⟩ := r
    obtain rfl : t = [] := htype
    obtain rfl : d = [] := hdata
    obtain rfl : line = [] := hline
    obtain rfl : afterCR = false := hafter
    show dispatch ⟨type, data ++ ['\n'], lastEventID, [], false, dispatched⟩ = _
    unfold dispatch
    dsimp only
    rw [if_neg (List.append_ne_nil_of_right_ne_nil data (by decide)), if_neg hplain.1, List.getLast?_concat,
      if_pos rfl, List.dropLast_concat]
    rfl

/-- **A block that is cut off dispatches nothing.** -/
theorem dispatched_cut (hclean : r.Clean) (hplain : b.Plain) {cut : List Char} (hcut : cut <+: b.text)
    (hshort : cut ≠ b.text) : (r.run cut).dispatched = r.dispatched := by
  have hlines : cut <+: b.lines := (List.prefix_concat_iff.mp hcut).resolve_left hshort
  obtain ⟨rest, hrest⟩ := hlines
  have hafter : (r.run cut).dispatched <+: (r.run b.lines).dispatched := by
    rw [← hrest, run_append]
    exact dispatched_run _ rest
  have hpending : (r.pending b).dispatched = r.dispatched := by cases b <;> rfl
  rw [run_lines hclean hplain, hpending] at hafter
  exact List.IsPrefix.eq_of_length_le hafter (dispatched_run r cut).length_le

/-- **A text of blocks that is cut off dispatches the events of the blocks before the cut.** -/
theorem run_cut {blocks : List Block} (hclean : r.Clean) (hplain : ∀ b ∈ blocks, b.Plain) {cut : List Char}
    (hcut : cut <+: blocks.flatMap Block.text) :
    ∃ arrived rest, blocks = arrived ++ rest ∧ arrived.flatMap Block.text <+: cut ∧
      (∀ b ∈ rest.head?, ¬ arrived.flatMap Block.text ++ b.text <+: cut) ∧
      (r.run cut).dispatched = r.dispatched ++ dispatches r.lastEventID arrived := by
  induction blocks generalizing r cut with
  | nil =>
    obtain rfl := List.prefix_nil.mp hcut
    exact ⟨[], [], rfl, List.prefix_rfl, nofun, (List.append_nil _).symm⟩
  | cons b blocks ih =>
    have hb := hplain b List.mem_cons_self
    by_cases hwhole : b.text <+: cut
    · obtain ⟨cut, rfl⟩ := hwhole
      rw [List.flatMap_cons] at hcut
      have hclean' : Clean { r with dispatched := r.dispatched ++ dispatches r.lastEventID [b] } := hclean
      obtain ⟨arrived, rest, rfl, hin, hnext, hrun⟩ := ih hclean'
        (fun b hb => hplain b (List.mem_cons_of_mem _ hb)) ((List.prefix_append_right_inj _).mp hcut)
      refine ⟨b :: arrived, rest, rfl, ?_, fun b' hb' hprefix' => ?_, ?_⟩
      · rw [List.flatMap_cons]
        exact (List.prefix_append_right_inj _).mpr hin
      · rw [List.flatMap_cons, List.append_assoc] at hprefix'
        exact hnext b' hb' ((List.prefix_append_right_inj _).mp hprefix')
      · rw [run_append, run_block hclean hb, hrun, List.append_assoc]
        exact congrArg (r.dispatched ++ ·) (List.filterMap_append (l := [b])).symm
    · have hcut' : cut <+: b.text := by
        rw [List.flatMap_cons] at hcut
        exact (List.prefix_or_prefix_of_prefix hcut (List.prefix_append b.text _)).resolve_right hwhole
      refine ⟨[], b :: blocks, rfl, List.nil_prefix, fun b' hb' hprefix' => ?_, ?_⟩
      · cases hb'
        exact hwhole hprefix'
      · rw [dispatched_cut hclean hb hcut' fun heq => hwhole (heq ▸ List.prefix_rfl)]
        exact (List.append_nil _).symm

theorem clean_start : start.Clean := ⟨rfl, rfl, rfl, rfl⟩

end Reader

/-- The first character of a block is none that is left out. -/
theorem Block.head_text (b : Block) : b.text.head? ≠ some '\uFEFF' := by
  cases b with
  | comment text =>
    show some ':' ≠ _
    decide
  | event type data =>
    show some 'e' ≠ _
    decide

theorem messages_eq {text : List Char} (h : text.head? ≠ some '\uFEFF') :
    messages text = (Reader.start.run text).dispatched := by
  unfold messages
  split
  · exact absurd rfl h
  · rfl

/-- What a text of blocks dispatches, wherever it is cut off. -/
theorem messages_cut {blocks : List Block} (hplain : ∀ b ∈ blocks, b.Plain) {cut : List Char}
    (hcut : cut <+: blocks.flatMap Block.text) :
    ∃ arrived rest, blocks = arrived ++ rest ∧ arrived.flatMap Block.text <+: cut ∧
      (∀ b ∈ rest.head?, ¬ arrived.flatMap Block.text ++ b.text <+: cut) ∧
      messages cut = dispatches [] arrived := by
  obtain ⟨arrived, rest, hblocks, hin, hnext, hrun⟩ := Reader.run_cut Reader.clean_start hplain hcut
  refine ⟨arrived, rest, hblocks, hin, hnext, ?_⟩
  rw [messages_eq ?_, hrun]
  · rfl
  · intro hmark
    obtain ⟨tail, rfl⟩ : ∃ tail, cut = '\uFEFF' :: tail := by
      cases cut with
      | nil => cases hmark
      | cons c tail => exact ⟨tail, by rw [Option.some.inj hmark]⟩
    obtain ⟨after, hafter⟩ := hcut
    cases blocks with
    | nil => cases hafter
    | cons b blocks =>
      refine b.head_text ?_
      have hhead := congrArg List.head? hafter
      rw [List.flatMap_cons, List.head?_append] at hhead
      cases htext : b.text with
      | nil => cases b <;> cases htext
      | cons c rest =>
        rw [htext] at hhead
        exact hhead.symm

end EventStream
