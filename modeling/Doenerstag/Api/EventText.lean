import Doenerstag.Go.Marshal
import Doenerstag.Lib.EventStream
import Doenerstag.Sse.Hub

/-!
# What an open page hears (`internal/api/events.go`, `frontend/src/events.ts`)

The loop of `events` writes one text, event after event, with payloads that hold what people have typed in. The
browser takes the text apart again, up to where the connection has been lost, and the page is told of the events
by their names.

* `streamText` — what a stream writes, for everything that its loop is woken by.
* `heard` — what the page is told of a text, or of a part of one.
* `heard_cut` — **wherever the connection is lost, the page is told of the events that have come in whole, each
  once and in order, with the payload that was published**, and of nothing else.
-/

namespace Doenerstag

open JsonText (Doc Value)
open EventStream (Block)

namespace Sse

def eventOrderDeleted : String := "order.deleted"
def eventOrderExpired : String := "order.expired"
def eventOrderMessage : String := "order.message"

end Sse

/-! ## Writing -/

/-- `writeEvent` -/
def writeEvent (e : Sse.Event (List Char)) : List Char :=
  "event: ".toList ++ e.name.toList ++ "\ndata: ".toList ++ e.data ++ "\n\n".toList

/-- What the loop of `events` is woken by. An event has the payload that it is published with. -/
inductive StreamTurn where
  | expiry
  | event (e : Sse.Event Doc)
  | ping

/-- The payload of `order.expired` -/
def expiredData (orderID : UUID) : List Char :=
  "\x7b\"id\":\"".toList ++ orderID.string.toList ++ "\"\x7d".toList

/-- What the loop writes in a turn -/
def StreamTurn.text (orderID : UUID) : StreamTurn → List Char
  | .expiry => writeEvent { name := Sse.eventOrderExpired, audience := .everyone, data := expiredData orderID }
  | .event e => writeEvent { name := e.name, audience := e.audience, data := marshal e.data }
  | .ping => "event: ping\ndata: \x7b\x7d\n\n".toList

def streamText (orderID : UUID) (turns : List StreamTurn) : List Char :=
  ": open\n\n".toList ++ turns.flatMap (StreamTurn.text orderID)

/-! ## Reading -/

/-- `ORDER_EVENTS` -/
def orderEvents : List String :=
  [Sse.eventItemCreated, Sse.eventItemUpdated, Sse.eventItemDeleted, Sse.eventOrderItemCount,
    Sse.eventOrderUpdated, Sse.eventOrderDeleted, Sse.eventOrderExpired, Sse.eventOrderMessage]

/-- `dispatch`: what `onEvent` is called with. A payload that cannot be parsed is `null`. -/
def dispatched (name : String) (m : EventStream.Message) : String × Value :=
  (name, (JsonText.parse (Utf16.encode m.data)).getD .null)

/-- `connect` adds a listener for each of the names. A message calls those of its type. -/
def listeners (m : EventStream.Message) : List (String × Value) :=
  (orderEvents.filter fun name => name.toList = m.type).map fun name => dispatched name m

/-- What a page that does not close its stream is told of a text. -/
def heard (received : List Char) : List (String × Value) :=
  (EventStream.messages received).flatMap listeners

/-- What the page is told of a turn -/
def StreamTurn.told (orderID : UUID) : StreamTurn → List (String × Value)
  | .expiry => [(Sse.eventOrderExpired,
      .object [(Utf16.encode "id".toList, .string (Utf16.encode orderID.string.toList))])]
  | .event e => [(e.name, JsonText.meaning e.data)]
  | .ping => []

/-! ## The blocks of a stream -/

/-- The identifier of an order needs no escaping. -/
theorem escape_uuid (id : UUID) : id.string.toList.flatMap escapeJSON = id.string.toList := by
  have hdigit : ∀ c ∈ id.string.toList, escapeJSON c = [c] := fun c hc => by
    by_cases hdash : c = '-'
    · rw [hdash]
      rfl
    · have hin : c ∈ hexDigits 32 id.n := by
        rw [← UUID.string_digits]
        exact List.mem_filter.mpr ⟨hc, by simp [hdash]⟩
      unfold hexDigits at hin
      obtain ⟨i, -, rfl⟩ := List.mem_map.mp (List.mem_reverse.mp hin)
      have hall : ∀ n < 16, escapeJSON (Nat.digitChar n) = [Nat.digitChar n] := by decide
      exact hall _ (Nat.mod_lt _ (by decide))
  rw [List.flatMap_congr hdigit]
  exact List.flatMap_singleton' _

/-- It is what `json.Marshal` makes of the identifier. -/
theorem expiredData_marshal (orderID : UUID) :
    expiredData orderID = marshal (.object [("id", .string orderID.string)]) := by
  have hid : "id".toList.flatMap escapeJSON = ['i', 'd'] := by decide
  unfold expiredData marshal
  simp only [JsonText.write, JsonText.writeMembers, JsonText.quoted, escape_uuid, hid]
  simp

namespace StreamTurn

variable {orderID : UUID} {t : StreamTurn}

/-- The event of a turn, with what it is published with -/
def event? (orderID : UUID) : StreamTurn → Option (String × Doc)
  | .expiry => some (Sse.eventOrderExpired, .object [("id", .string orderID.string)])
  | .event e => some (e.name, e.data)
  | .ping => none

def block (orderID : UUID) (t : StreamTurn) : Block :=
  match t.event? orderID with
  | some (name, data) => .event name.toList (marshal data)
  | none => .event "ping".toList "\x7b\x7d".toList

/-- Its event is one of those that the page listens for. -/
def Known (t : StreamTurn) : Prop := ∀ e, t = .event e → e.name ∈ orderEvents

theorem writeEvent_block (name : String) (audience : Sse.Audience) (data : List Char) :
    writeEvent { name, audience, data } = (Block.event name.toList data).text := by
  show _ ++ _ ++ _ ++ data ++ ['\n', '\n'] = (_ ++ _ ++ _ ++ data ++ ['\n']) ++ ['\n']
  rw [List.append_assoc (_ ++ data) ['\n'] ['\n']]
  rfl

theorem text_block : t.text orderID = (t.block orderID).text := by
  cases t with
  | expiry =>
    show writeEvent _ = _
    rw [writeEvent_block, expiredData_marshal]
    rfl
  | event e => exact writeEvent_block _ _ _
  | ping => rfl

/-- The names of the events can stand on a line. -/
theorem orderEvents_line : ∀ name ∈ orderEvents, name.toList ≠ [] ∧ '\n' ∉ name.toList ∧ '\r' ∉ name.toList := by
  decide

theorem plain_block (hknown : t.Known) : (t.block orderID).Plain := by
  cases t with
  | expiry =>
    obtain ⟨hne, hline⟩ := orderEvents_line Sse.eventOrderExpired (by decide)
    exact ⟨hne, hline, marshal_line _⟩
  | event e =>
    obtain ⟨hne, hline⟩ := orderEvents_line e.name (hknown e rfl)
    exact ⟨hne, hline, marshal_line _⟩
  | ping => exact ⟨by decide, by decide, by decide⟩

end StreamTurn

/-! ## What is heard -/

/-- A message under one of the names calls the listener of that name, with what was published. -/
theorem listeners_known {name : String} (hname : name ∈ orderEvents) (v : Doc) (lastEventID : List Char) :
    listeners { type := name.toList, data := marshal v, lastEventID } = [(name, JsonText.meaning v)] := by
  have hone : ∀ n ∈ orderEvents, orderEvents.filter (fun other => other.toList = n.toList) = [n] := by decide
  show (orderEvents.filter fun other => other.toList = name.toList).map _ = _
  rw [hone name hname]
  show [(name, (JsonText.parse (Utf16.encode (marshal v))).getD .null)] = _
  rw [marshal_read]
  rfl

theorem listeners_ping (data lastEventID : List Char) :
    listeners { type := "ping".toList, data, lastEventID } = [] := by
  have hnone : orderEvents.filter (fun other => other.toList = "ping".toList) = [] := by decide
  show (orderEvents.filter fun other => other.toList = "ping".toList).map _ = _
  rw [hnone]
  rfl

theorem listeners_block {orderID : UUID} {t : StreamTurn} (hknown : t.Known) (lastEventID : List Char) :
    (EventStream.dispatches lastEventID [t.block orderID]).flatMap listeners = t.told orderID := by
  cases t with
  | expiry =>
    show listeners { type := Sse.eventOrderExpired.toList, data := marshal _, lastEventID } ++ [] = _
    rw [listeners_known (by decide), List.append_nil]
    rfl
  | event e =>
    show listeners { type := e.name.toList, data := marshal e.data, lastEventID } ++ [] = _
    rw [listeners_known (hknown e rfl), List.append_nil]
    rfl
  | ping => exact (List.append_nil _).trans (listeners_ping _ _)

theorem listeners_blocks {orderID : UUID} {turns : List StreamTurn} (hknown : ∀ t ∈ turns, t.Known)
    (lastEventID : List Char) :
    (EventStream.dispatches lastEventID (turns.map (StreamTurn.block orderID))).flatMap listeners =
      turns.flatMap (StreamTurn.told orderID) := by
  induction turns with
  | nil => rfl
  | cons t turns ih =>
    have hone : (EventStream.dispatches lastEventID [t.block orderID]).flatMap listeners = t.told orderID :=
      listeners_block (hknown t List.mem_cons_self) lastEventID
    rw [List.flatMap_cons, ← ih fun t' ht' => hknown t' (List.mem_cons_of_mem t ht'), ← hone, ← List.flatMap_append]
    refine congrArg (List.flatMap listeners) ?_
    exact List.filterMap_append (l := [t.block orderID])

/-- What a stream writes is a comment, and the blocks of its turns. -/
theorem streamText_blocks (orderID : UUID) (turns : List StreamTurn) : streamText orderID turns =
    (Block.comment " open".toList :: turns.map (StreamTurn.block orderID)).flatMap Block.text := by
  rw [List.flatMap_cons, List.flatMap_map]
  show _ ++ turns.flatMap (StreamTurn.text orderID) = _
  rw [List.flatMap_congr fun t _ => (StreamTurn.text_block : t.text orderID = (t.block orderID).text)]
  rfl

/-- **Wherever the connection is lost, the page is told of the events that have come in whole**, each once and in
order, and of nothing else. -/
theorem heard_cut {orderID : UUID} {turns : List StreamTurn} (hknown : ∀ t ∈ turns, t.Known) {received : List Char}
    (hcut : received <+: streamText orderID turns) :
    ∃ arrived rest, turns = arrived ++ rest ∧ (arrived ≠ [] → streamText orderID arrived <+: received) ∧
      (∀ t ∈ rest.head?, ¬ streamText orderID (arrived ++ [t]) <+: received) ∧
      heard received = arrived.flatMap (StreamTurn.told orderID) := by
  rw [streamText_blocks] at hcut
  have hplain : ∀ b ∈ Block.comment " open".toList :: turns.map (StreamTurn.block orderID), b.Plain := by
    intro b hb
    rcases List.mem_cons.mp hb with rfl | hb
    · exact ⟨by decide, by decide⟩
    · obtain ⟨t, ht, rfl⟩ := List.mem_map.mp hb
      exact StreamTurn.plain_block (hknown t ht)
  obtain ⟨blocks, after, hsplit, hin, hnext, hmessages⟩ := EventStream.messages_cut hplain hcut
  cases blocks with
  | nil =>
    -- not even the opening comment is there
    obtain rfl : after = _ := hsplit.symm
    refine ⟨[], turns, rfl, fun hne => absurd rfl hne, fun t _ hwhole => ?_, ?_⟩
    · rw [streamText_blocks] at hwhole
      exact hnext _ rfl ((List.prefix_append _ _).trans hwhole)
    · unfold heard
      rw [hmessages]
      rfl
  | cons opening blocks =>
    obtain ⟨rfl, hrest⟩ := List.cons.inj hsplit
    obtain ⟨arrived, rest, rfl, rfl, rfl⟩ := List.map_eq_append_iff.mp hrest
    refine ⟨arrived, rest, rfl, fun _ => ?_, fun t ht hwhole => ?_, ?_⟩
    · rw [streamText_blocks]
      exact hin
    · refine hnext (t.block orderID) ?_ ?_
      · rw [List.head?_map, Option.mem_def.mp ht]
        rfl
      · rw [streamText_blocks, List.map_append, ← List.cons_append, List.flatMap_append] at hwhole
        simpa using hwhole
    · show (EventStream.messages received).flatMap listeners = _
      rw [hmessages]
      exact listeners_blocks (fun t ht => hknown t (List.mem_append_left rest ht)) []

/-- A note that looks like the end of its event -/
def noteAdded : Sse.Event Doc :=
  { name := Sse.eventItemCreated
    audience := .authenticatedOnly
    data := .object [("note", .string "a\n\nevent: order.deleted")] }

def noteTurns : List StreamTurn := [.event noteAdded, .ping, .expiry]

theorem noteTurns_known : ∀ t ∈ noteTurns, t.Known := by
  intro t ht e heq
  subst heq
  obtain rfl : e = noteAdded := by simpa [noteTurns] using ht
  decide

/-- The connection is lost within the ping. -/
theorem heard_cut_note : ∃ arrived rest, noteTurns = arrived ++ rest ∧
    (arrived ≠ [] → streamText ⟨7⟩ arrived <+: (streamText ⟨7⟩ noteTurns).take 85) ∧
    (∀ t ∈ rest.head?, ¬ streamText ⟨7⟩ (arrived ++ [t]) <+: (streamText ⟨7⟩ noteTurns).take 85) ∧
    heard ((streamText ⟨7⟩ noteTurns).take 85) = arrived.flatMap (StreamTurn.told ⟨7⟩) :=
  heard_cut noteTurns_known (List.take_prefix _ _)

end Doenerstag
