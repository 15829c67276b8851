import CommitStatus.Build.Reader
import CommitStatus.Report.Dispatch

/-!
# Events over the web

An event that comes as the body of a request is answered with the build's log, whatever goes wrong with it; a body
that is no such event is rejected and changes nothing. Only work that is called off has no answer.

* `Web.processEvent` handles the body of a request.
-/

namespace CommitStatus.Web

/-- The answer to an event. -/
inductive Answer
  | rejected (e : Invalid)
  | handled (log : List String)
  deriving DecidableEq, Repr

/-- The status of an answer. -/
def Answer.status : Answer → Nat
  | .rejected _ => 400
  | .handled _ => 200

/-- The record of an event that is rejected. -/
def rejectionRecord (kind : EventKind) : LogRecord :=
  ⟨.web, .warning, "Rejecting malformed " ++ kind.word ++ " event", false⟩

/-- The record of an event that could not be handled. -/
def dispatchRecord : LogRecord := ⟨.web, .error, "Exception raised when dispatching event", true⟩

/-- Count and log what went wrong beside the notification, and go on. -/
def contain (o : Outcome) : Outcome :=
  match o.trouble with
  | none => o
  | some t =>
    if t.isCancelled then o
    else { (o.count (.error .dispatch)).log [dispatchRecord] with trouble := none }

/-- Handle an event. -/
def handleEvent (n : Notifier) (event : Event) (w : World) : Outcome := contain (n.handle event w)

/-- The answer after an event was handled, unless the work was called off. -/
def answer? (o : Outcome) : Option Answer :=
  match o.trouble with
  | some _ => none
  | none => some (.handled o.remarks.entries)

/-- Handle the body of a request: what became of it, and the answer. -/
def processEvent (n : Notifier) (kind : EventKind) (body : List UInt8) (w : World) : Outcome × Option Answer :=
  match Event.read kind body with
  | .error e => ((Outcome.start w).log [rejectionRecord kind], some (.rejected e))
  | .ok event =>
    let o := handleEvent n event w
    (o, answer? o)

end CommitStatus.Web
