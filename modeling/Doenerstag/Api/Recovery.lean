import Doenerstag.Api.Envelope
import Doenerstag.Lib.ResponseWriter

/-!
# Who sees a panic (`internal/api/middleware.go`, `internal/api/router.go`)

The chain that `NewServer` puts together, and everything that is inside of it: middlewares, the router, and
the handler that it dispatches to. What these do on one request is a script each, that ends with a panic or
without.

* `requestID`, `logRequests`, `recover`, `router` — the layers as they are in the source; `serve` — the chain.
* `Exchange.Traced` — each panic is logged and answered, and the request is logged once.
* `inner_run` — what happens below `Recover` when the router has nothing to recover.
* `inner_swallowed` — a panic below the router gets no line.
* `traced_iff` — **a request with a panic is traced exactly when the router saw none, and what was sent before
  leaves room for the envelope and was noted.**
-/

namespace Doenerstag

open ResponseWriting

/-! ## Request ids -/

def plausibleRequestID (id : String) : Bool :=
  id ≠ "" && id.utf8ByteSize ≤ 200 &&
    id.toList.all fun c => c.isAlphanum || c == '-' || c == '_' || c == '.' || c == ':'

/-- `fresh` is what `uuid.NewV7` returns. -/
def newRequestID (fresh : Option UUID) : String := fresh.elim "unavailable" UUID.string

/-- `logging.AnonymousUser` -/
def anonymousUser : String := "-"

namespace Recovery

/-! ## A request and its response -/

/-- `envelope` -/
structure Envelope extends EnvelopeBody where
  requestID : String
  deriving DecidableEq

inductive Chunk where
  | bytes (b : List UInt8)
  | envelope (e : Envelope)
  deriving DecidableEq

/-- `encoded` is how long the JSON of an envelope is. -/
def Chunk.size (encoded : Envelope → Nat) : Chunk → Nat
  | bytes b => b.length
  | envelope e => encoded e

/-- `http.Request`, with the request id of its context -/
structure Request where
  /-- `X-Request-Id` -/
  inbound : String
  method : String
  path : String
  requestID : String
  deriving DecidableEq

def assignedID (fresh : Option UUID) (r : Request) : String :=
  if plausibleRequestID r.inbound then r.inbound else newRequestID fresh

inductive LogLine (π : Type) where
  /-- the INFO line of `LogRequests`; the duration is left out -/
  | request (requestID user method path : String) (status : Nat)
  /-- the ERROR line of `Recover`; the stack is left out -/
  | panicked (requestID method path : String) (value : π)

def LogLine.completed {π : Type} : LogLine π → Option (String × Nat)
  | request requestID _ _ _ status => some (requestID, status)
  | panicked .. => none

def LogLine.panic {π : Type} : LogLine π → Option (String × π)
  | request .. => none
  | panicked requestID _ _ value => some (requestID, value)

/-- `statusRecorder` -/
structure StatusRecorder where
  status : Nat
  written : Bool
  deriving DecidableEq

/-- What it makes of a call before it passes it on -/
def StatusRecorder.note (s : StatusRecorder) : Action Chunk → StatusRecorder
  | .writeHeader code => if s.written then s else { status := code.code, written := true }
  | .write _ => if s.written then s else { status := 200, written := true }
  | .setLength _ | .flush => s

/-- A panic, and whether nothing had been sent before; the code has no such record. -/
structure Raised (π : Type) where
  value : π
  unsent : Bool

structure Exchange (π : Type) where
  reply : Output Chunk
  recorder : StatusRecorder
  /-- the `actingUser` box -/
  user : String
  log : List (LogLine π)
  raised : List (Raised π)

inductive Ending (π : Type) where
  | returned
  | panicked (value : π)

inductive Step where
  | respond (a : Action Chunk)
  /-- `SetUserName` -/
  | setUserName (name : String)

/-- What a layer does on one request, and how it ends -/
structure Script (π : Type) where
  steps : List Step
  ending : Ending π

def Step.action : Step → Option (Action Chunk)
  | respond a => some a
  | setUserName _ => none

section Chain

variable {π : Type} (encoded : Envelope → Nat)

namespace Exchange

def fresh : Exchange π :=
  { reply := .fresh, recorder := { status := 200, written := false }, user := "", log := [], raised := [] }

def perform (x : Exchange π) : Step → Exchange π
  | .respond a => { x with reply := x.reply.perform (Chunk.size encoded) a, recorder := x.recorder.note a }
  | .setUserName name => { x with user := name }

def performAll (x : Exchange π) (steps : List Step) : Exchange π := steps.foldl (perform encoded) x

/-- `panic(v)`, unless it returned -/
def ended (x : Exchange π) : Ending π → Exchange π
  | .returned => x
  | .panicked value => { x with raised := x.raised ++ [{ value, unsent := x.reply.status.isNone }] }

end Exchange

def Script.run (s : Script π) (x : Exchange π) : Ending π × Exchange π :=
  (s.ending, (x.performAll encoded s.steps).ended s.ending)

/-! ## The layers -/

abbrev Handler (π : Type) : Type := Request → Exchange π → Ending π × Exchange π

abbrev Middleware (π : Type) : Type := Handler π → Handler π

theorem status_valid (c : Code) : 100 ≤ c.status ∧ c.status ≤ 999 := by
  unfold Code.status registry
  split <;> decide

/-- `WriteError` -/
def writeError (r : Request) (err : ApiError) (x : Exchange π) : Exchange π :=
  x.performAll encoded [.respond (.writeHeader ⟨err.code.status, status_valid err.code⟩),
    .respond (.write (.envelope { err.body with requestID := r.requestID }))]

/-- `Chain`: the first is the outermost. -/
def chain (h : Handler π) (middleware : List (Middleware π)) : Handler π := middleware.foldr (fun m h => m h) h

/-- `RequestID` -/
def requestID (fresh : Option UUID) : Middleware π := fun next r x =>
  next { r with requestID := assignedID fresh r } x

/-- `UserNameFrom` -/
def userNameFrom (box : String) : String := if box ≠ "" then box else anonymousUser

/-- `LogRequests` -/
def logRequests : Middleware π := fun next r x =>
  match next r { x with recorder := { status := 200, written := false }, user := "" } with
  | (.panicked value, x) => (.panicked value, x)
  | (.returned, x) =>
    (.returned, { x with
      log := x.log ++ [.request r.requestID (userNameFrom x.user) r.method r.path x.recorder.status] })

/-- `Recover` -/
def recover : Middleware π := fun next r x =>
  match next r x with
  | (.returned, x) => (.returned, x)
  | (.panicked value, x) =>
    (.returned, writeError encoded r (.of codeInternal)
      { x with log := x.log ++ [.panicked r.requestID r.method r.path value] })

/-- One of the middlewares below `Recover`, on one request -/
inductive Layer (π : Type) where
  /-- it answers the request itself, or panics before it passes it on. -/
  | answers (s : Script π)
  | passes (before : List Step) (after : Script π)

def Layer.middleware : Layer π → Middleware π
  | answers s => fun _ _ x => s.run encoded x
  | passes before after => fun next r x =>
    match next r (x.performAll encoded before) with
    | (.panicked value, x) => (.panicked value, x)
    | (.returned, x) => after.run encoded x

/-- `handlePanic` -/
def handlePanic (r : Request) (_value : π) (x : Exchange π) : Exchange π :=
  writeError encoded r (.of codeInternal) x

/-- `Router.ServeHTTP`: the panics of its dispatch and of the handlers go to the `PanicHandler`. -/
def router (dispatch : Script π) : Handler π := fun r x =>
  match dispatch.run encoded x with
  | (.returned, x) => (.returned, x)
  | (.panicked value, x) => (.returned, handlePanic encoded r value x)

/-- What is below `Recover` -/
def inner (layers : List (Layer π)) (dispatch : Script π) : Handler π :=
  chain (router encoded dispatch) (layers.map (Layer.middleware encoded))

/-- The handler of `NewServer`, on one request -/
def serve (fresh : Option UUID) (layers : List (Layer π)) (dispatch : Script π) : Handler π :=
  chain (router encoded dispatch)
    ([requestID fresh, logRequests, recover encoded] ++ layers.map (Layer.middleware encoded))

end Chain

/-! ## What is to be seen of a panic -/

/-- The envelope of an unexpected error -/
def internalEnvelope (requestID : String) : Envelope := { (ApiError.of codeInternal).body with requestID }

/-- Each panic has its ERROR line, the request has one line with the status that was sent, and a panic before
anything was sent is answered with the envelope. -/
structure Exchange.Traced {π : Type} (encoded : Envelope → Nat) (requestID : String) (x : Exchange π) : Prop where
  panics : x.log.filterMap LogLine.panic = x.raised.map fun p => (requestID, p.value)
  completed : x.log.filterMap LogLine.completed = [(requestID, x.reply.status.getD 200)]
  answered : (∃ p ∈ x.raised, p.unsent = true) →
    x.reply.status = some 500 ∧ x.reply.body = [.envelope (internalEnvelope requestID)] ∧
      x.reply.Whole (Chunk.size encoded)

/-- The request gets as far as the router. -/
def reachesRouter {π : Type} : List (Layer π) → Bool
  | [] => true
  | .answers _ :: _ => false
  | .passes .. :: layers => reachesRouter layers

/-- The router recovers a panic. -/
def RouterPanics {π : Type} (layers : List (Layer π)) (dispatch : Script π) : Prop :=
  reachesRouter layers = true ∧ ∃ value, dispatch.ending = .panicked value

/-- All that is done below `Recover`, when the router has nothing to recover -/
def performed {π : Type} (layers : List (Layer π)) (dispatch : Script π) : List Step × Ending π :=
  match layers with
  | [] => (dispatch.steps, dispatch.ending)
  | .answers s :: _ => (s.steps, s.ending)
  | .passes before after :: layers =>
    match performed layers dispatch with
    | (steps, .panicked value) => (before ++ steps, .panicked value)
    | (steps, .returned) => (before ++ steps ++ after.steps, after.ending)

section Runs

variable {π : Type} {encoded : Envelope → Nat} {r : Request} {layers : List (Layer π)} {dispatch : Script π}

theorem performAll_append (x : Exchange π) (before after : List Step) :
    x.performAll encoded (before ++ after) = (x.performAll encoded before).performAll encoded after :=
  List.foldl_append

theorem inner_passes_returned {before : List Step} {after : Script π} {x x' : Exchange π}
    (h : inner encoded layers dispatch r (x.performAll encoded before) = (.returned, x')) :
    inner encoded (.passes before after :: layers) dispatch r x = after.run encoded x' := by
  show (Layer.passes before after).middleware encoded (inner encoded layers dispatch) r x = _
  unfold Layer.middleware
  simp only [h]

theorem inner_passes_panicked {before : List Step} {after : Script π} {value : π} {x x' : Exchange π}
    (h : inner encoded layers dispatch r (x.performAll encoded before) = (.panicked value, x')) :
    inner encoded (.passes before after :: layers) dispatch r x = (.panicked value, x') := by
  show (Layer.passes before after).middleware encoded (inner encoded layers dispatch) r x = _
  unfold Layer.middleware
  simp only [h]

/-- **Without a panic that the router recovers, the layers do what they do one after the other.** -/
theorem inner_run (encoded : Envelope → Nat) (r : Request) (h : ¬ RouterPanics layers dispatch) (x : Exchange π) :
    inner encoded layers dispatch r x =
      ((performed layers dispatch).2,
        (x.performAll encoded (performed layers dispatch).1).ended (performed layers dispatch).2) := by
  induction layers generalizing x with
  | nil =>
    cases hending : dispatch.ending with
    | panicked value => exact (h ⟨rfl, value, hending⟩).elim
    | returned =>
      show router encoded dispatch r x = _
      unfold router Script.run performed
      rw [hending]
  | cons layer layers ih =>
    cases layer with
    | answers s => rfl
    | passes before after =>
      have hinner := ih (fun hbelow => h hbelow) (x.performAll encoded before)
      unfold performed
      rcases hrest : performed layers dispatch with ⟨steps, ending⟩
      rw [hrest] at hinner
      cases ending with
      | returned =>
        rw [inner_passes_returned hinner]
        show (after.ending, (((x.performAll encoded before).performAll encoded steps).performAll encoded
          after.steps).ended after.ending) =
            (after.ending, (x.performAll encoded (before ++ steps ++ after.steps)).ended after.ending)
        rw [performAll_append, performAll_append]
      | panicked value =>
        rw [inner_passes_panicked hinner]
        show (Ending.panicked value, ((x.performAll encoded before).performAll encoded steps).ended _) =
          (Ending.panicked value, (x.performAll encoded (before ++ steps)).ended _)
        rw [performAll_append]

theorem log_performAll (x : Exchange π) (steps : List Step) : (x.performAll encoded steps).log = x.log := by
  induction steps generalizing x with
  | nil => rfl
  | cons step steps ih =>
    show ((x.perform encoded step).performAll encoded steps).log = x.log
    rw [ih]
    cases step <;> rfl

theorem raised_performAll (x : Exchange π) (steps : List Step) :
    (x.performAll encoded steps).raised = x.raised := by
  induction steps generalizing x with
  | nil => rfl
  | cons step steps ih =>
    show ((x.perform encoded step).performAll encoded steps).raised = x.raised
    rw [ih]
    cases step <;> rfl

theorem writeError_reply (err : ApiError) (x : Exchange π) :
    (writeError encoded r err x).reply = x.reply.answer (Chunk.size encoded)
      ⟨err.code.status, status_valid err.code⟩ (.envelope { err.body with requestID := r.requestID }) := rfl

/-- How many panics a script has let out -/
def Ending.count : Ending π → Nat
  | .returned => 0
  | .panicked _ => 1

theorem ended_log (x : Exchange π) (ending : Ending π) : (x.ended ending).log = x.log := by
  cases ending <;> rfl

theorem ended_raised (x : Exchange π) (ending : Ending π) :
    (x.ended ending).raised.length = x.raised.length + ending.count := by
  cases ending with
  | returned => rfl
  | panicked value => exact List.length_append

/-- **A panic that the router recovers leaves no line behind.** -/
theorem inner_swallowed (encoded : Envelope → Nat) (r : Request) (h : RouterPanics layers dispatch)
    (x : Exchange π) :
    (inner encoded layers dispatch r x).2.log = x.log ∧
      (inner encoded layers dispatch r x).2.raised.length =
        x.raised.length + 1 + (inner encoded layers dispatch r x).1.count := by
  obtain ⟨hreaches, value, hending⟩ := h
  induction layers generalizing x with
  | nil =>
    have hrun : inner encoded [] dispatch r x =
        (.returned, handlePanic encoded r value ((x.performAll encoded dispatch.steps).ended (.panicked value))) := by
      show router encoded dispatch r x = _
      unfold router Script.run
      rw [hending]
    rw [hrun]
    unfold handlePanic writeError
    constructor
    · rw [log_performAll, ended_log, log_performAll]
    · rw [raised_performAll, ended_raised, raised_performAll]
      rfl
  | cons layer layers ih =>
    cases layer with
    | answers s => cases hreaches
    | passes before after =>
      obtain ⟨hlog, hraised⟩ := ih (x.performAll encoded before) hreaches
      rw [log_performAll] at hlog
      rw [raised_performAll] at hraised
      rcases hbelow : inner encoded layers dispatch r (x.performAll encoded before) with ⟨ending, x'⟩
      rw [hbelow] at hlog hraised
      cases ending with
      | returned =>
        rw [inner_passes_returned hbelow, Script.run]
        constructor
        · rw [ended_log, log_performAll]
          exact hlog
        · rw [ended_raised, raised_performAll]
          exact congrArg (· + after.ending.count) hraised
      | panicked value' =>
        rw [inner_passes_panicked hbelow]
        exact ⟨hlog, hraised⟩

end Runs

/-! ## What the recorder notes -/

section Notes

variable {π : Type}

theorem note_written {s : StatusRecorder} (h : s.written = true) (actions : List (Action Chunk)) :
    actions.foldl StatusRecorder.note s = s := by
  induction actions with
  | nil => rfl
  | cons action actions ih =>
    have hsame : s.note action = s := by
      cases action <;> simp [StatusRecorder.note, h]
    rw [List.foldl_cons, hsame]
    exact ih

/-- The recorder has the first status that is written, or the 200 that comes with the first bytes. -/
theorem note_unwritten {s : StatusRecorder} (h : s.written = false) (actions : List (Action Chunk)) :
    actions.foldl StatusRecorder.note s = (noted actions).elim s fun code => { status := code, written := true } := by
  induction actions with
  | nil => rfl
  | cons action actions ih =>
    cases action with
    | setLength n => exact ih
    | flush => exact ih
    | writeHeader code =>
      have hnoted : s.note (.writeHeader code) = { status := code.code, written := true } := by
        simp [StatusRecorder.note, h]
      rw [List.foldl_cons, hnoted]
      exact note_written rfl actions
    | write b =>
      have hnoted : s.note (.write b) = { status := 200, written := true } := by
        simp [StatusRecorder.note, h]
      rw [List.foldl_cons, hnoted]
      exact note_written rfl actions

theorem performAll_steps (encoded : Envelope → Nat) (x : Exchange π) (steps : List Step) :
    (x.performAll encoded steps).reply = x.reply.performAll (Chunk.size encoded) (steps.filterMap Step.action) ∧
      (x.performAll encoded steps).recorder = (steps.filterMap Step.action).foldl StatusRecorder.note x.recorder := by
  induction steps generalizing x with
  | nil => exact ⟨rfl, rfl⟩
  | cons step steps ih =>
    cases step with
    | respond a => exact ih (x.perform encoded (.respond a))
    | setUserName name => exact ih (x.perform encoded (.setUserName name))

end Notes

/-! ## The whole chain -/

/-- Nothing was sent, and a length was announced that is not that of the envelope. -/
def Misannounced (encoded : Envelope → Nat) (requestID : String) (actions : List (Action Chunk)) : Prop :=
  goesOut actions = none ∧ lengthAfter none actions ≠ none ∧
    lengthAfter none actions ≠ some (encoded (internalEnvelope requestID))

section Whole

variable {π : Type} (encoded : Envelope → Nat) (fresh : Option UUID) (layers : List (Layer π))
  (dispatch : Script π) (r : Request)

/-- What the response is made of before `Recover` sees a panic -/
def sentBefore : List (Action Chunk) := (performed layers dispatch).1.filterMap Step.action

theorem serve_eq : serve encoded fresh layers dispatch r .fresh =
    logRequests (recover encoded (inner encoded layers dispatch)) { r with requestID := assignedID fresh r } .fresh :=
  rfl

theorem logRequests_returned {next : Handler π} {x : Exchange π} (h : next r .fresh = (.returned, x)) :
    logRequests next r .fresh = (.returned, { x with
      log := x.log ++ [.request r.requestID (userNameFrom x.user) r.method r.path x.recorder.status] }) := by
  have hfresh : next r { (Exchange.fresh : Exchange π) with
      recorder := { status := 200, written := false }, user := "" } = (.returned, x) := h
  unfold logRequests
  simp only [hfresh]

theorem recover_returned {next : Handler π} {x x' : Exchange π} (h : next r x = (.returned, x')) :
    recover encoded next r x = (.returned, x') := by
  unfold recover
  simp only [h]

theorem recover_panicked {next : Handler π} {x x' : Exchange π} {value : π} (h : next r x = (.panicked value, x')) :
    recover encoded next r x = (.returned, writeError encoded r (.of codeInternal)
      { x' with log := x'.log ++ [.panicked r.requestID r.method r.path value] }) := by
  unfold recover
  simp only [h]

/-- A panic that the router recovers is not in the log. -/
theorem not_traced (h : RouterPanics layers dispatch) :
    ¬ (serve encoded fresh layers dispatch r .fresh).2.Traced encoded (assignedID fresh r) := by
  intro htraced
  have hlines := congrArg List.length htraced.panics
  rw [serve_eq, List.length_map] at hlines
  obtain ⟨hlog, hraised⟩ := inner_swallowed encoded { r with requestID := assignedID fresh r } h .fresh
  rcases hinner : inner encoded layers dispatch { r with requestID := assignedID fresh r } .fresh with ⟨ending, x⟩
  rw [hinner] at hlog hraised
  have hempty : x.log = [] := hlog
  cases ending with
  | returned =>
    have hcount : x.raised.length = 1 := hraised
    rw [logRequests_returned _ (recover_returned _ _ hinner)] at hlines
    simp only [hempty, hcount, List.nil_append] at hlines
    exact Nat.zero_ne_one hlines
  | panicked value =>
    have hcount : x.raised.length = 2 := hraised
    rw [logRequests_returned _ (recover_panicked _ _ hinner)] at hlines
    unfold writeError at hlines
    simp only [hempty, hcount, List.nil_append, log_performAll, raised_performAll] at hlines
    exact absurd (Nat.succ.inj hlines) Nat.zero_ne_one

theorem writeError_recorder (err : ApiError) (x : Exchange π) :
    (writeError encoded r err x).recorder.status =
      if x.recorder.written then x.recorder.status else err.code.status := by
  unfold writeError Exchange.performAll
  cases hwritten : x.recorder.written <;> simp [Exchange.perform, StatusRecorder.note, hwritten]

/-- **What is left of a panic that `Recover` sees** -/
theorem serve_recovered (hrouter : ¬ RouterPanics layers dispatch) {value : π}
    (hending : (performed layers dispatch).2 = .panicked value) :
    (serve encoded fresh layers dispatch r .fresh).2.log.filterMap LogLine.panic = [(assignedID fresh r, value)] ∧
    (serve encoded fresh layers dispatch r .fresh).2.log.filterMap LogLine.completed =
      [(assignedID fresh r, (noted (sentBefore layers dispatch)).getD 500)] ∧
    (serve encoded fresh layers dispatch r .fresh).2.raised =
      [{ value, unsent := (goesOut (sentBefore layers dispatch)).isNone }] ∧
    (serve encoded fresh layers dispatch r .fresh).2.reply =
      (Output.fresh.performAll (Chunk.size encoded) (sentBefore layers dispatch)).answer (Chunk.size encoded)
        ⟨500, by decide⟩ (.envelope (internalEnvelope (assignedID fresh r))) := by
  have hinner := inner_run encoded { r with requestID := assignedID fresh r } hrouter .fresh
  rw [hending] at hinner
  rw [serve_eq, logRequests_returned _ (recover_panicked _ _ hinner)]
  obtain ⟨hreply, hrecorder⟩ := performAll_steps encoded (.fresh : Exchange π) (performed layers dispatch).1
  have hlog : ((.fresh : Exchange π).performAll encoded (performed layers dispatch).1).log = [] := log_performAll _ _
  have hraised : ((.fresh : Exchange π).performAll encoded (performed layers dispatch).1).raised = [] :=
    raised_performAll _ _
  generalize (Exchange.fresh : Exchange π).performAll encoded (performed layers dispatch).1 = x at *
  have hstatus : x.reply.status = goesOut (sentBefore layers dispatch) := by
    rw [hreply, status_performAll]
    rfl
  refine ⟨?_, ?_, ?_, ?_⟩
  · unfold writeError
    rw [log_performAll]
    simp only [ended_log, hlog]
    rfl
  · rw [note_unwritten rfl] at hrecorder
    simp only [writeError_recorder]
    unfold writeError
    rw [log_performAll]
    simp only [ended_log, hlog]
    show [(_, if x.recorder.written then x.recorder.status else 500)] = [_]
    rw [hrecorder]
    show [(assignedID fresh r, _)] = [(assignedID fresh r, (noted (sentBefore layers dispatch)).getD 500)]
    unfold sentBefore
    cases noted ((performed layers dispatch).1.filterMap Step.action) <;> rfl
  · unfold writeError
    rw [raised_performAll]
    show x.raised ++ [_] = _
    rw [hraised, hstatus]
    rfl
  · rw [writeError_reply]
    show x.reply.answer _ _ _ = _
    rw [hreply]
    rfl

/-- **A request with a panic is traced exactly when the router recovered none, and what was sent before it was
noted and leaves room for the envelope.** -/
theorem traced_iff (hpanics : (serve encoded fresh layers dispatch r .fresh).2.raised ≠ []) :
    (serve encoded fresh layers dispatch r .fresh).2.Traced encoded (assignedID fresh r) ↔
      ¬ RouterPanics layers dispatch ∧ Orderly (sentBefore layers dispatch) ∧
        ¬ Misannounced encoded (assignedID fresh r) (sentBefore layers dispatch) := by
  by_cases hrouter : RouterPanics layers dispatch
  · exact iff_of_false (not_traced encoded fresh layers dispatch r hrouter) fun h => h.1 hrouter
  cases hending : (performed layers dispatch).2 with
  | returned =>
    have hinner := inner_run encoded { r with requestID := assignedID fresh r } hrouter .fresh
    rw [hending] at hinner
    rw [serve_eq, logRequests_returned _ (recover_returned _ _ hinner)] at hpanics
    exact (hpanics (raised_performAll _ _)).elim
  | panicked value =>
    obtain ⟨hpanic, hcompleted, hraised, hreply⟩ := serve_recovered encoded fresh layers dispatch r hrouter hending
    have hplain : Status.informational ⟨500, by decide⟩ = false := by decide
    have hunsent : (Output.fresh.performAll (Chunk.size encoded) (sentBefore layers dispatch)).status =
        goesOut (sentBefore layers dispatch) := status_performAll _ _ _
    have hsent : (serve encoded fresh layers dispatch r .fresh).2.reply.status =
        some ((goesOut (sentBefore layers dispatch)).getD 500) := by
      rw [hreply, status_answer _ _ hplain, hunsent]
      cases goesOut (sentBefore layers dispatch) <;> rfl
    have hdelivered (h : goesOut (sentBefore layers dispatch) = none) := by
      have hiff := answer_delivered_iff (Chunk.size encoded) (hunsent.trans h) (body_of_unsent _ h rfl) hplain
        (.envelope (internalEnvelope (assignedID fresh r)))
      rwa [length_performAll, ← hreply] at hiff
    rw [and_iff_right hrouter, orderly_iff (by decide : 200 < 500)]
    constructor
    · intro htraced
      have hstatus := htraced.completed
      rw [hcompleted, hsent] at hstatus
      refine ⟨congrArg Prod.snd (List.singleton_injective hstatus), ?_⟩
      rintro ⟨hnone, hlength, hother⟩
      have hthere := htraced.answered ⟨_, hraised ▸ List.mem_singleton.mpr rfl, by rw [hnone]; rfl⟩
      exact ((hdelivered hnone).mp hthere.2).elim hlength hother
    · rintro ⟨hnoted, hannounced⟩
      refine ⟨?_, ?_, ?_⟩
      · rw [hpanic, hraised]
        rfl
      · rw [hcompleted, hsent, hnoted]
        rfl
      · rintro ⟨p, hp, hp'⟩
        rw [hraised] at hp
        rw [List.mem_singleton.mp hp] at hp'
        have hnone := Option.isNone_iff_eq_none.mp hp'
        rw [hsent, hnone]
        refine ⟨rfl, (hdelivered hnone).mpr ?_⟩
        by_contra hneither
        rw [not_or] at hneither
        exact hannounced ⟨hnone, hneither.1, hneither.2⟩

end Whole

/-! ## A panic above the router, and one below -/

/-- A middleware that only passes the request on -/
def passesOn : Layer String := .passes [] { steps := [], ending := .returned }

def getOrders : Request :=
  { inbound := "upstream-abc-123", method := "GET", path := "/api/v1/orders", requestID := "-" }

/-- Authentication panics. -/
theorem traced_iff_authentication :
    (serve (fun _ => 92) none [passesOn, .answers { steps := [], ending := .panicked "boom" }, passesOn]
      { steps := [], ending := .returned } getOrders .fresh).2.Traced (fun _ => 92) "upstream-abc-123" := by
  have hpanics : (serve (fun _ => 92) none [passesOn, .answers { steps := [], ending := .panicked "boom" }, passesOn]
      { steps := [], ending := .returned } getOrders .fresh).2.raised ≠ [] := List.cons_ne_nil _ _
  have hid : assignedID none getOrders = "upstream-abc-123" := by decide
  rw [← hid]
  refine (traced_iff (fun _ => 92) none _ _ getOrders hpanics).mpr ⟨?_, trivial, ?_⟩
  · rintro ⟨hreaches, -⟩
    cases hreaches
  · rintro ⟨-, hlength, -⟩
    exact hlength rfl

/-- A route handler panics, and the log has no trace of it. -/
theorem handlerPanic_not_traced :
    (serve (fun _ => 92) none [passesOn, passesOn, passesOn] { steps := [], ending := .panicked "boom" } getOrders
      .fresh).2.raised.length = 1 ∧
    (serve (fun _ => 92) none [passesOn, passesOn, passesOn] { steps := [], ending := .panicked "boom" } getOrders
      .fresh).2.log.filterMap LogLine.panic = [] ∧
    ¬ (serve (fun _ => 92) none [passesOn, passesOn, passesOn] { steps := [], ending := .panicked "boom" } getOrders
      .fresh).2.Traced (fun _ => 92) (assignedID none getOrders) :=
  ⟨rfl, rfl, not_traced _ _ _ _ _ ⟨rfl, "boom", rfl⟩⟩

end Recovery

end Doenerstag
