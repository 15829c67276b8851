import CommitStatus.Report.Notification

/-!
# Events

The checkout of a build is reported once, by whoever sets its marker; its completion is always reported. What goes
wrong with a notification is said in the build's log and goes no further, unless the work was called off.

* `Notifier.handle` handles an event.
-/

namespace CommitStatus

/-- Put an outcome behind what was counted before. -/
def Outcome.after (counted : List Counter) (o : Outcome) : Outcome := { o with counted := counted ++ o.counted }

/-- What is said when a notification fails. -/
def notSentText : String := "Could not send notifications"

/-- Keep what went wrong with a notification from going further. -/
def Outcome.settle (kind : EventKind) (id : String) (o : Outcome) : Outcome :=
  match o.trouble with
  | none => o
  | some t =>
    if t.isCancelled then o
    else
      { o with
        remarks := o.remarks ++ [.error notSentText (some t)]
        counted := o.counted ++ [.error (.event kind)]
        records := o.records ++ [Remark.errorRecord id notSentText (some t)]
        trouble := none }

namespace Notifier

/-- Report a build, and keep what goes wrong from going further. -/
def notifySafely (n : Notifier) (kind : EventKind) (source : Source) (build : Build) (w : World) : Outcome :=
  (n.notify source build w).settle kind build.id

/-- Handle the checkout of a build with a source. -/
def onCheckout (n : Notifier) (source : Source) (build : Build) (w : World) : Outcome :=
  match n.findRevision source build with
  | .error t => (Outcome.start w).fail t
  | .ok none => .start w
  | .ok (some _) =>
    match w.markers.add build.id with
    | (false, _) => .start w
    | (true, markers) => n.notifySafely .checkout source build { w with markers }

/-- Handle an event. -/
def handle (n : Notifier) (event : Event) (w : World) : Outcome :=
  let counted := [Counter.event event.kind]
  match n.findSource event.build.job with
  | .error t => ((Outcome.start w).fail t).after counted
  | .ok none => (Outcome.start w).after counted
  | .ok (some source) =>
    match event with
    | .checkout build _ => (n.onCheckout source build w).after counted
    | .completed build => (n.notifySafely .completed source build w).after counted

end Notifier

end CommitStatus
