import Mathlib.Data.List.Induction
import PromptRelay.Proofs.ServerWatch
import PromptRelay.Proofs.ToolTurns

namespace PromptRelay

/-- What happens to the calls of a server: a call begins on a session; the relay takes its request up,
so that the line of the request is written; a stop is recorded on a session; a reply is handed to a call
of a tool; a call is answered. -/
inductive Deed where
  | began (id session : Nat) (tool : ToolCall)
  | wrote (id : Nat)
  | recorded (session : Nat) (stop : StopNotice)
  | handed (session : Nat) (tool : ToolCall) (inDebugMode : Bool)
  | answered (id : Nat) (report : Report)
  deriving DecidableEq

namespace Deed

/-- The board of a session after a deed. -/
def onBoard (i : Nat) (b : StopBoard) : Deed → StopBoard
  | .began _ j tool => if j = i then tool.beginOn b else b
  | .recorded j stop => if j = i then b.record stop else b
  | .handed j tool inDebugMode => if j = i then tool.noteOn inDebugMode b else b
  | .wrote _ | .answered .. => b

def stopOn? (i : Nat) : Deed → Option StopNotice
  | .recorded j stop => if j = i then some stop else none
  | _ => none

def begun? : Deed → Option Nat
  | .began id _ _ => some id
  | _ => none

def reported? : Deed → Option (Nat × Report)
  | .answered id report => some (id, report)
  | _ => none

/-- A deed that touches no board and begins no call. -/
def idle : Deed → Bool
  | .wrote _ | .answered .. => true
  | _ => false

end Deed

def boardAfter (i : Nat) (b : StopBoard) (t : List Deed) : StopBoard := t.foldl (Deed.onBoard i) b

/-- The board of a session by what has happened. -/
def boardOf (i : Nat) (t : List Deed) : StopBoard := boardAfter i .start t

/-- The stops recorded on a session, in order. -/
def stopsOn (i : Nat) (t : List Deed) : List StopNotice := t.filterMap (Deed.stopOn? i)

section Lists

variable {i : Nat} {b : StopBoard} {t u : List Deed}

theorem boardAfter_append (i : Nat) (b : StopBoard) (t u : List Deed) :
    boardAfter i b (t ++ u) = boardAfter i (boardAfter i b t) u := List.foldl_append

theorem boardOf_append (i : Nat) (t u : List Deed) :
    boardOf i (t ++ u) = boardAfter i (boardOf i t) u := List.foldl_append

theorem boardAfter_cons (i : Nat) (b : StopBoard) (d : Deed) (t : List Deed) :
    boardAfter i b (d :: t) = boardAfter i (d.onBoard i b) t := rfl

theorem stopsOn_append (i : Nat) (t u : List Deed) : stopsOn i (t ++ u) = stopsOn i t ++ stopsOn i u :=
  List.filterMap_append

theorem boardAfter_idle (i : Nat) (b : StopBoard) (idle : ∀ d ∈ t, d.idle = true) :
    boardAfter i b t = b := by
  induction t with
  | nil => rfl
  | cons d later ih =>
    have first := idle d List.mem_cons_self
    have same : d.onBoard i b = b := by
      cases d <;> first | rfl | cases first
    rw [boardAfter_cons, same]
    exact ih fun d hd => idle d (List.mem_cons_of_mem _ hd)

theorem stopsOn_idle (i : Nat) (idle : ∀ d ∈ t, d.idle = true) : stopsOn i t = [] := by
  refine List.filterMap_eq_nil_iff.mpr fun d hd => ?_
  have still := idle d hd
  cases d <;> first | rfl | cases still

theorem begun_idle (idle : ∀ d ∈ t, d.idle = true) : t.filterMap Deed.begun? = [] := by
  refine List.filterMap_eq_nil_iff.mpr fun d hd => ?_
  have still := idle d hd
  cases d <;> first | rfl | cases still

theorem eq_recorded_of_stopOn {d : Deed} {stop : StopNotice} (told : d.stopOn? i = some stop) :
    d = .recorded i stop := by
  cases d <;> simp [Deed.stopOn?] at told
  obtain ⟨rfl, rfl⟩ := told
  rfl

/-- A deed that records no stop clears the last one or leaves it. -/
theorem onBoard_last (i : Nat) (b : StopBoard) {d : Deed} (silent : d.stopOn? i = none) :
    (d.onBoard i b).last = none ∨ (d.onBoard i b).last = b.last := by
  cases d with
  | began id j tool =>
    simp only [Deed.onBoard, ToolCall.beginOn]
    split_ifs
    · exact Or.inl rfl
    · exact Or.inr rfl
    · exact Or.inr rfl
  | recorded j stop =>
    have other : j ≠ i := by simpa [Deed.stopOn?] using silent
    exact Or.inr (by simp [Deed.onBoard, other])
  | handed j tool inDebugMode =>
    simp only [Deed.onBoard, ToolCall.noteOn]
    split_ifs
    · exact Or.inl rfl
    · exact Or.inr rfl
    · exact Or.inr rfl
    · exact Or.inr rfl
  | wrote | answered => exact Or.inr rfl

/-- If a session holds a stop, that is the last one recorded, or the one held before if none was. -/
theorem last_after (i : Nat) (b : StopBoard) (t : List Deed) :
    (boardAfter i b t).last = none ∨
      (boardAfter i b t).last = (stopsOn i t).getLast?.or b.last := by
  induction t using List.reverseRecOn with
  | nil => exact Or.inr rfl
  | append_singleton t d ih =>
    rw [boardAfter_append, stopsOn_append]
    cases told : d.stopOn? i with
    | none =>
      have none : stopsOn i [d] = [] := by simp [stopsOn, told]
      rw [none, List.append_nil]
      rcases onBoard_last i (boardAfter i b t) told with cleared | same
      · exact Or.inl cleared
      · exact ih.imp same.trans same.trans
    | some stop =>
      obtain rfl := eq_recorded_of_stopOn told
      right
      simp [stopsOn, Deed.stopOn?, boardAfter, Deed.onBoard, StopBoard.record, StopBoard.hold,
        StopBoard.bump, StopBoard.markStopped]

end Lists

/-- The relay has taken up the request of a ticket: its line was written, and it is in flight or has its
reply. -/
def Relay.serves (r : Relay) (ticket : Nat) : Bool :=
  r.inFlight.any (·.ticket = ticket) || r.resolved[ticket]?.any (·.result.toOption.isSome)

namespace Switchboard

/-- The request of a call was taken up, be it that the call has had its reply. -/
def serves (b : Switchboard Outcome) (c : Call Outcome) : Bool :=
  match c.wait with
  | .reply ticket _ => b.sessions[c.session]?.any (·.relay.serves ticket)
  | .stop .. => true

def boardAt (b : Switchboard Outcome) (i : Nat) : StopBoard := b.sessions[i]?.elim .start (·.board)

/-- The stop that a session would record next. -/
def recordedStop? (b : Switchboard Outcome) (i : Nat) : Option StopNotice := do
  let s ← b.sessions[i]?
  if s.recording then s.notices.head? else none

end Switchboard

namespace ToolServer

def writings (b b' : Switchboard Outcome) : List Deed :=
  (b.calls.filter fun c => !b.serves c && b'.serves c).map (.wrote ·.id)

def answers (b b' : Switchboard Outcome) : List Deed :=
  (b'.results.drop b.results.length).map fun x => .answered x.1 (reportOf x.2)

/-- A call that goes to work on the current session begins there. -/
def beginning (s : ToolServer) (id : Nat) (c : ToolCall) : List Deed :=
  match ToolTask.ofCall? c, s.current with
  | some _, some i => [.began id i c]
  | _, _ => []

namespace Watched

/-- What a happening does to a board at once. -/
def opening (w : Watched) : Happening → List Deed
  | .call c =>
    if w.server.launching.isSome then []
    else beginning w.server w.server.board.started c
  | .resume =>
    match w.server.launching, w.server.waiting with
    | none, (id, c) :: _ => beginning w.server id c
    | _, _ => []
  | .move (.deliver i) _ =>
    match handedSign? w.callers w.server.board i with
    | some (.reply tool inDebugMode) => [.handed i tool inDebugMode]
    | _ => []
  | .move (.record i) _ => (w.server.board.recordedStop? i).toList.map (.recorded i)
  | _ => []

def deeds (w : Watched) (h : Happening) : List Deed :=
  let after := w.server.happen h
  w.opening h ++ (writings w.server.board after.board ++ answers w.server.board after.board)

def timeline (w : Watched) : List Happening → List Deed
  | [] => []
  | h :: later => w.deeds h ++ (w.happen h).timeline later

theorem timeline_append (w : Watched) (first later : List Happening) :
    w.timeline (first ++ later) = w.timeline first ++ (w.run first).timeline later := by
  induction first generalizing w with
  | nil => rfl
  | cons h rest ih =>
    simp only [List.cons_append, timeline, ih, List.append_assoc]
    rfl

end Watched

/-- All that has happened to the calls in a run. -/
def timeline (host : Host) (happenings : List Happening) : List Deed :=
  (Watched.start host).timeline happenings

end ToolServer

end PromptRelay
