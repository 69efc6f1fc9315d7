import FlowTrace.Failure
import FlowTrace.Report.Basic

/-! # Events

What a session announces to those who watch it: the fate of a request and every move of the
playback. An **event** carries the number of the request it belongs to and, depending on its
kind, what it tells (`News`). -/

namespace FlowTrace

/-- What an event tells beyond its kind. -/
inductive News where
  /-- Nothing more. -/
  | nothing
  /-- A request was made for code of some length in bytes. -/
  | submitted (language : Text) (codeLength : Nat)
  /-- A request was answered. -/
  | completed (result : Result)
  /-- A request failed. -/
  | failed (failure : Failure)
  /-- The playback is at the step with an index; before the first step it is `-1`. -/
  | moved (index : Int) (nodeId description : Text)
  deriving Repr

/-- An **event**. -/
structure Event where
  /-- The name of the event itself. -/
  id : Text := []
  /-- The kind of event, a dotted name. -/
  kind : Text
  /-- Who announces it. -/
  source : Text := []
  /-- The number of the request it belongs to. -/
  generation : Nat := 0
  /-- What it tells. -/
  news : News := .nothing
  deriving Repr

namespace Event

/-- The kind of event when a request is made. -/
def analysisSubmitted : Text := "analysis.submitted"

/-- The kind of event when a request is answered. -/
def analysisCompleted : Text := "analysis.completed"

/-- The kind of event when a request fails. -/
def analysisFailed : Text := "analysis.failed"

/-- The kind of event when the answer to a request comes too late. -/
def analysisDiscarded : Text := "analysis.discarded"

/-- The kind of event when a session starts over. -/
def sessionReset : Text := "session.reset"

/-- The kind of event when the playback moves. -/
def playbackStep : Text := "playback.step"

/-- The kind of event when the playback starts to run by itself. -/
def playbackStarted : Text := "playback.started"

/-- The kind of event when the playback is stopped. -/
def playbackPaused : Text := "playback.paused"

/-- The kind of event when the playback has reached the last step. -/
def playbackFinished : Text := "playback.finished"

end Event

end FlowTrace
