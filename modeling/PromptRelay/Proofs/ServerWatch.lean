import Mathlib.Data.List.Nodup
import Mathlib.Logic.Function.Basic
import PromptRelay.Proofs.Closing
import PromptRelay.Proofs.ServerRuns
import PromptRelay.Proofs.ToolTasks

namespace PromptRelay

/-- What tells where the REPL is: a reply that a call of a tool got, with the prompt it ended at, or a
stop that was recorded. -/
inductive Sign where
  | reply (tool : ToolCall) (inDebugMode : Bool)
  | stop
  deriving DecidableEq

namespace Sign

/-- The flag after a sign: only some tools note their replies. -/
def mark (debugging : Bool) : Sign → Bool
  | .reply tool inDebugMode => if tool.notes then inDebugMode else debugging
  | .stop => true

def marked (signs : List Sign) : Bool := signs.foldl mark false

theorem marked_concat (signs : List Sign) (x : Sign) : marked (signs ++ [x]) = mark (marked signs) x := by
  simp [marked]

def prompt? : Sign → Option Bool
  | .reply _ inDebugMode => some inDebugMode
  | .stop => none

end Sign

/-- The prompt that a reply ended at. -/
def Resolution.prompt? (x : Resolution) : Option Bool := x.result.toOption.map (·.inDebugMode)

/-- The call that a session's next resolution goes to, and the resolution. -/
def Switchboard.handover? {α : Type} (b : Switchboard α) (session : Nat) :
    Option (Call α × Resolution) := do
  let x ← b.sessions[session]?.bind Session.undelivered?
  return (← b.calls.find? (Switchboard.awaits session x.request.ticket), x)

namespace ToolServer

/-- The sign of a result that a tool gets: a reply tells its prompt, a fault tells nothing. -/
def signOf (tool : ToolCall) (x : Resolution) : Option Sign := x.prompt?.map (Sign.reply tool)

def handedSign? (callers : List (Option ToolCall)) (b : Switchboard Outcome) (i : Nat) :
    Option Sign := do
  let (c, x) ← b.handover? i
  signOf (← callers[c.id]?.join) x

def recordedSign? (b : Switchboard Outcome) (i : Nat) : Option Sign := do
  let s ← b.sessions[i]?
  if s.recording && !s.notices.isEmpty then some .stop else none

def addSign (signs : Nat → List Sign) (i : Nat) (x : Option Sign) : Nat → List Sign :=
  Function.update signs i (signs i ++ x.toList)

/-- Signs are given when a resolution is handed over and when a stop is recorded. -/
def movedSigns (callers : List (Option ToolCall)) (signs : Nat → List Sign) (b : Switchboard Outcome) :
    Switchboard.Move Outcome → Nat → List Sign
  | .deliver i => addSign signs i (handedSign? callers b i)
  | .record i => addSign signs i (recordedSign? b i)
  | _ => signs

/-- The tools with a record of what happened: who made each call, by its number, and the signs that
each session gave. -/
structure Watched where
  server : ToolServer
  callers : List (Option ToolCall)
  signs : Nat → List Sign

namespace Watched

def start (host : Host) : Watched := ⟨.start host, [], fun _ => []⟩

def entries : Happening → List (Option ToolCall)
  | .call c => [some c]
  | .refuse _ => [none]
  | _ => []

def signsAfter (w : Watched) : Happening → Nat → List Sign
  | .move m _ => movedSigns w.callers w.signs w.server.board m
  | _ => w.signs

def happen (w : Watched) (h : Happening) : Watched :=
  ⟨w.server.happen h, w.callers ++ entries h, w.signsAfter h⟩

def run (w : Watched) (happenings : List Happening) : Watched := happenings.foldl happen w

/-- The record changes nothing. -/
theorem run_server (w : Watched) (happenings : List Happening) :
    (w.run happenings).server = w.server.run happenings := by
  induction happenings generalizing w with
  | nil => rfl
  | cons h later ih => exact ih (w.happen h)

end Watched

/-- What is known of a session: its relay takes either prompt, the flag on its board is the one its
signs have set once what is owed is paid, these tell of each reply that was handed over, and somebody
waits for each that was not. -/
structure Tracked (signs : List Sign) (owed : Option Bool) (calls : List (Call Outcome)) (i : Nat)
    (s : Session) : Prop where
  either : s.relay.mode = .either
  orderly : s.relay.Orderly
  handed : s.delivered ≤ s.relay.resolved.length
  flag : owed.getD s.board.debugging = Sign.marked signs
  replies : signs.filterMap Sign.prompt? =
    (s.relay.resolved.take s.delivered).filterMap Resolution.prompt?
  awaited : ∀ t, s.delivered ≤ t → t < s.relay.issued →
    ∃ c ∈ calls, Switchboard.awaits i t c = true

/-- What is known of the board: each call has its own number and keeps the discipline of its tool. -/
structure Kept (callers : List (Option ToolCall)) (signs : Nat → List Sign) (owed : Nat → Option Bool)
    (b : Switchboard Outcome) : Prop where
  distinct : (b.calls.map (·.id)).Nodup
  minded : ∀ c ∈ b.calls, ∃ tool, callers[c.id]? = some (some tool) ∧ c.wait.Minds tool.notes
  silent : ∀ i, b.sessions.length ≤ i → signs i = []
  tracked : ∀ i s, b.sessions[i]? = some s → Tracked (signs i) (owed i) b.calls i s

variable {callers : List (Option ToolCall)} {signs : Nat → List Sign} {owed : Nat → Option Bool}
  {b : Switchboard Outcome} {seen : List Sign} {due : Option Bool} {calls : List (Call Outcome)}
  {i : Nat} {s t : Session}

/-- A session that no task touched is as well known as before, however many calls there are more. -/
theorem Tracked.drift (h : Tracked seen due calls i s) (drifts : s.Drifts t)
    {calls' : List (Call Outcome)}
    (stay : ∀ c ∈ calls, ∀ n, Switchboard.awaits i n c = true → t.delivered ≤ n → c ∈ calls') :
    Tracked seen due calls' i t := by
  have settled := drifts.relay.settled
  refine ⟨drifts.relay.mode.trans h.either, drifts.relay.orderly h.orderly,
    drifts.delivered ▸ Nat.le_trans h.handed settled.length_le, drifts.board ▸ h.flag, ?_, ?_⟩
  · obtain ⟨more, eq⟩ := settled
    rw [h.replies, drifts.delivered, ← eq, List.take_append_of_le_length h.handed]
  · intro n handed issued
    rw [drifts.relay.issued] at issued
    obtain ⟨c, hc, awaits⟩ := h.awaited n (drifts.delivered ▸ handed) issued
    exact ⟨c, stay c hc n awaits handed, awaits⟩

/-- A session that is left when all it resolved was handed over: who waited there need not wait. -/
theorem Tracked.abandon (h : Tracked seen due calls i s) (caughtUp : s.undelivered? = none)
    (calls' : List (Call Outcome)) : Tracked seen due calls' i s.abandon := by
  obtain ⟨nobody, refused⟩ := s.relay.stop_refuses
  have drifts := s.relay.stop_drifts
  have orderly := drifts.orderly h.orderly
  have all : s.delivered = s.relay.resolved.length :=
    Nat.le_antisymm h.handed (List.getElem?_eq_none_iff.mp caughtUp)
  refine ⟨drifts.mode.trans h.either, orderly, Nat.le_refl _, h.flag, ?_, fun n handed issued => ?_⟩
  · have silent : (Relay.refusals s.relay.closedReason s.relay.outstanding).filterMap
        Resolution.prompt? = [] := by
      refine List.filterMap_eq_nil_iff.mpr fun x mem => ?_
      obtain ⟨q, _, rfl⟩ := List.mem_map.mp mem
      rfl
    simp only [Session.abandon, Session.kill, List.take_length]
    rw [refused, List.filterMap_append, silent, List.append_nil, h.replies, all, List.take_length]
  · have settled : s.relay.stop.resolved.length = s.relay.stop.issued := by
      have lengths := congrArg List.length orderly.tickets
      simpa [Relay.row, nobody] using lengths
    exact absurd issued (Nat.not_lt.mpr (settled ▸ handed))

theorem Tracked.enlarge (h : Tracked seen due calls i s) (more : List (Call Outcome)) :
    Tracked seen due (calls ++ more) i s :=
  h.drift (.refl s) fun _ hc _ _ _ => List.mem_append_left more hc

/-- A session after one turn of a task that pays what is due and may post a request. -/
theorem Tracked.advance (h : Tracked seen due calls i s) {tool : ToolCall} {task : Task Outcome}
    (minds : task.Minds tool.notes due) (now id : Nat) :
    (∃ t a, s.advance now task = (t, .finished a) ∧ Tracked seen none calls i t) ∨
      ∃ t wait, s.advance now task = (t, .waiting wait) ∧ wait.Minds tool.notes ∧
        Tracked seen none (calls ++ [⟨id, i, wait⟩]) i t := by
  obtain ⟨board, paid, ends⟩ := Session.advance_minds minds now h.either
  have flag : board.debugging = Sign.marked seen := paid.trans h.flag
  rcases ends with ⟨a, eq⟩ | ⟨line, relay, ticket, next, submitted, goesOn, eq⟩ |
    ⟨count, deadline, next, goesOn, eq⟩
  · exact Or.inl ⟨_, a, eq, { h with flag }⟩
  · refine Or.inr ⟨_, _, eq, goesOn, ?_⟩
    have orderly := Relay.submit_orderly submitted h.orderly
    obtain ⟨rfl, rfl⟩ := Relay.submit_posted submitted
    refine ⟨h.either, orderly, h.handed, flag, h.replies, fun n handed issued => ?_⟩
    by_cases old : n < s.relay.issued
    · exact (h.enlarge _).awaited n handed old
    · have new : n = s.relay.issued := Nat.le_antisymm (Nat.lt_succ_iff.mp issued) (Nat.not_lt.mp old)
      exact ⟨_, List.mem_append_right _ (List.mem_singleton_self _), by simp [Switchboard.awaits, new]⟩
  · exact Or.inr ⟨_, _, eq, goesOn, { h.enlarge _ with flag }⟩

/-- Only session `i` changes. -/
theorem tracked_set {t : Session} (own : Tracked (signs i) none calls i t)
    (others : ∀ j x, j ≠ i → b.sessions[j]? = some x → Tracked (signs j) none calls j x) (j : Nat)
    (x : Session) (hx : (b.sessions.set i t)[j]? = some x) : Tracked (signs j) none calls j x := by
  by_cases same : j = i
  · subst same
    obtain ⟨bound, _⟩ := List.getElem?_eq_some_iff.mp hx
    rw [List.getElem?_set_self (by simpa using bound)] at hx
    cases hx
    exact own
  · rw [List.getElem?_set_ne (Ne.symm same)] at hx
    exact others j x same hx

/-- A call that goes on pays what is due on its session. -/
theorem Kept.carryOn (h : Kept callers signs (Function.update (fun _ => none) i due) b) {id : Nat}
    (unused : id ∉ b.calls.map (·.id)) {tool : ToolCall} (caller : callers[id]? = some (some tool))
    {task : Task Outcome} (minds : task.Minds tool.notes due) :
    Kept callers signs (fun _ => none) (b.carryOn id i task) := by
  have others : ∀ j x, j ≠ i → b.sessions[j]? = some x → Tracked (signs j) none b.calls j x := by
    intro j x other hx
    have known := h.tracked j x hx
    rwa [Function.update_of_ne other] at known
  cases here : b.sessions[i]? with
  | none =>
    simp only [Switchboard.carryOn, here]
    refine { h with tracked := fun j x hx => others j x ?_ hx }
    rintro rfl
    cases here.symm.trans hx
  | some s =>
    have own := h.tracked i s here
    rw [Function.update_self] at own
    rcases own.advance minds b.now id with ⟨t, a, eq, paid⟩ | ⟨t, wait, eq, goesOn, paid⟩
    · simp only [Switchboard.carryOn, here, eq]
      exact ⟨h.distinct, h.minded, by simpa [Switchboard.finish] using h.silent, tracked_set paid others⟩
    · simp only [Switchboard.carryOn, here, eq]
      refine ⟨?_, ?_, by simpa using h.silent,
        tracked_set paid fun j x other hx => (others j x other hx).enlarge _⟩
      · rw [List.map_append]
        refine List.nodup_append.mpr ⟨h.distinct, by simp, fun a ha c hc same => ?_⟩
        rw [same, List.mem_singleton.mp hc] at ha
        exact unused ha
      · intro c hc
        rcases List.mem_append.mp hc with old | new
        · exact h.minded c old
        · rw [List.mem_singleton.mp new]
          exact ⟨tool, caller, goesOn⟩

/-- So does a call that goes on when nothing is due. -/
theorem Kept.carryOn_clear (h : Kept callers signs (fun _ => none) b) {id : Nat}
    (unused : id ∉ b.calls.map (·.id)) {tool : ToolCall} (caller : callers[id]? = some (some tool))
    {task : Task Outcome} (minds : task.Minds tool.notes none) :
    Kept callers signs (fun _ => none) (b.carryOn id i task) := by
  rw [← Function.update_eq_self i fun _ : Nat => (none : Option Bool)] at h
  exact h.carryOn unused caller minds

/-- What happens to a session without a task leaves everything known that was. -/
theorem Kept.modify (h : Kept callers signs owed b) (session : Nat) (change : Session → Session)
    (drifts : ∀ s : Session, s.Drifts (change s)) :
    Kept callers signs owed (b.modify session change) := by
  refine ⟨h.distinct, h.minded, by simpa [Switchboard.modify] using h.silent, fun j x hx => ?_⟩
  simp only [Switchboard.modify, List.getElem?_modify] at hx
  obtain ⟨s, hs, rfl⟩ := Option.map_eq_some_iff.mp hx
  have known := h.tracked j s hs
  by_cases same : session = j
  · simp only [same, if_true]
    exact known.drift (drifts s) fun _ hc _ _ _ => hc
  · simp only [same, if_false]
    exact known

/-- A new session has given no sign yet. -/
theorem Kept.addSession (h : Kept callers signs (fun _ => none) b)
    (started : Tracked [] none b.calls b.sessions.length s) :
    Kept callers signs (fun _ => none) { b with sessions := b.sessions ++ [s] } := by
  refine ⟨h.distinct, h.minded, fun j later => h.silent j ?_, fun j x hx => ?_⟩
  · simp only [List.length_append, List.length_singleton] at later
    omega
  · by_cases old : j < b.sessions.length
    · rw [List.getElem?_append_left old] at hx
      exact h.tracked j x hx
    · rw [List.getElem?_append_right (Nat.not_lt.mp old)] at hx
      obtain ⟨place, new⟩ := List.getElem?_eq_some_iff.mp hx
      have last : j = b.sessions.length := by
        simp only [List.length_singleton] at place
        omega
      subst last
      rw [h.silent _ (Nat.le_refl _), ← new]
      simpa using started

theorem started_tracked (s : Session) (relay : ∃ input, s.relay = .start input)
    (board : s.board = .start) (delivered : s.delivered = 0) : Tracked [] none calls i s := by
  obtain ⟨input, relay⟩ := relay
  refine ⟨by simp [relay, Relay.start], relay ▸ Relay.start_orderly input, by simp [delivered],
    by simp [board, StopBoard.start, Sign.marked], by simp [relay, Relay.start], ?_⟩
  intro n _ issued
  simp [relay, Relay.start] at issued

theorem eq_reply_of_awaits {ticket : Nat} {c : Call Outcome}
    (h : Switchboard.awaits i ticket c = true) :
    ∃ id goesOn, c = ⟨id, i, .reply ticket goesOn⟩ := by
  obtain ⟨id, session, wait⟩ := c
  cases wait with
  | reply t goesOn =>
    obtain ⟨rfl, rfl⟩ : session = i ∧ t = ticket := by simpa [Switchboard.awaits] using h
    exact ⟨id, goesOn, rfl⟩
  | stop count deadline goesOn => cases h

/-- While nobody calls on a session, all of its past was handed over. -/
theorem Tracked.past_of_nobody (h : Tracked seen due calls i s) (nobody : ∀ c ∈ calls, c.session ≠ i) :
    s.delivered = s.relay.issued ∧ s.relay.outstanding = [] := by
  have all : s.relay.issued ≤ s.delivered := by
    by_contra some
    obtain ⟨c, mem, awaits⟩ := h.awaited s.delivered (Nat.le_refl _) (Nat.lt_of_not_le some)
    obtain ⟨id, next, rfl⟩ := eq_reply_of_awaits awaits
    exact nobody _ mem rfl
  have row := congrArg List.length h.orderly.tickets
  have handed := h.handed
  simp only [Relay.row, List.length_append, List.length_map, List.length_range] at row
  exact ⟨by omega, List.eq_nil_of_length_eq_zero (by omega)⟩

/-- A call waits for the next resolution, and that is the call the record names. -/
theorem Kept.handover (h : Kept callers signs (fun _ => none) b) (here : b.sessions[i]? = some s)
    {x : Resolution} (next : s.undelivered? = some x) :
    ∃ id tool goesOn, b.handover? i = some (⟨id, i, .reply s.delivered goesOn⟩, x) ∧
      ⟨id, i, .reply s.delivered goesOn⟩ ∈ b.calls ∧ callers[id]? = some (some tool) ∧
      (∀ result, (goesOn result).Minds tool.notes (owedFor tool.notes result)) ∧
      b.deliverNext i =
        ((b.modify i fun s => { s with delivered := s.delivered + 1 }).dropCall id).carryOn id i
          (goesOn x.result) := by
  have known := h.tracked i s here
  have place : s.delivered < s.relay.resolved.length := (List.getElem?_eq_some_iff.mp next).1
  have ticket : x.request.ticket = s.delivered := Switchboard.ticket_of_resolved known.orderly next
  obtain ⟨c, hc, awaits⟩ :=
    known.awaited s.delivered (Nat.le_refl _) (Nat.lt_of_lt_of_le place known.orderly.settled_le)
  obtain ⟨found, hfound⟩ := Option.isSome_iff_exists.mp (List.find?_isSome.mpr ⟨c, hc, awaits⟩)
  have mem := List.mem_of_find?_eq_some hfound
  obtain ⟨id, goesOn, rfl⟩ := eq_reply_of_awaits (List.find?_some hfound)
  obtain ⟨tool, caller, minds⟩ := h.minded _ mem
  refine ⟨id, tool, goesOn, ?_, mem, caller, minds, ?_⟩
  · simp [Switchboard.handover?, here, next, ticket, hfound]
  · simp only [Switchboard.deliverNext, here, Option.bind_some, next, Switchboard.deliver, ticket]
    rw [show (b.modify i _).calls = b.calls from rfl, hfound]

/-- A session whose next resolution has just been handed to a call of a tool. -/
theorem Tracked.handOver (h : Tracked seen none calls i s) {x : Resolution}
    (next : s.undelivered? = some x) (tool : ToolCall) {calls' : List (Call Outcome)}
    (stay : ∀ c ∈ calls, ∀ n, Switchboard.awaits i n c = true → s.delivered < n → c ∈ calls') :
    Tracked (seen ++ (signOf tool x).toList) (owedFor tool.notes x.result) calls' i
      { s with delivered := s.delivered + 1 } := by
  obtain ⟨place, eq⟩ := List.getElem?_eq_some_iff.mp next
  refine ⟨h.either, h.orderly, place, ?_, ?_, fun n handed issued => ?_⟩
  · cases hr : x.result with
    | error fault => simpa [signOf, Resolution.prompt?, hr, owedFor, Except.toOption] using h.flag
    | ok reply =>
      have flag : s.board.debugging = Sign.marked seen := h.flag
      cases notes : tool.notes <;>
        simp [signOf, Resolution.prompt?, hr, owedFor, Except.toOption, Sign.marked_concat, Sign.mark,
          notes, flag]
  · have last : s.relay.resolved[s.delivered]? = some x := next
    simp only [List.take_add_one, last, List.filterMap_append, h.replies]
    cases hp : x.prompt? <;> simp [signOf, hp, Sign.prompt?]
  · obtain ⟨c, hc, awaits⟩ := h.awaited n (Nat.le_of_succ_le handed) issued
    exact ⟨c, stay c hc n awaits handed, awaits⟩

theorem mem_dropCall (h : Kept callers signs owed b) {c d : Call Outcome} (hc : c ∈ b.calls)
    (hd : d ∈ b.calls) (other : c ≠ d) : c ∈ (b.dropCall d.id).calls := by
  refine List.mem_filter.mpr ⟨hc, ?_⟩
  simpa using fun same => other (List.inj_on_of_nodup_map h.distinct hc hd same)

theorem addSign_none (signs : Nat → List Sign) (i : Nat) : addSign signs i none = signs := by
  simp [addSign]

theorem addSign_self (signs : Nat → List Sign) (i : Nat) (x : Option Sign) :
    addSign signs i x i = signs i ++ x.toList := Function.update_self ..

theorem addSign_other (signs : Nat → List Sign) {i j : Nat} (x : Option Sign) (other : j ≠ i) :
    addSign signs i x j = signs j := Function.update_of_ne other ..

/-- Session `i` changes and gives a sign; some calls are over. -/
theorem Kept.changeSession (h : Kept callers signs (fun _ => none) b) {change : Session → Session}
    {x : Option Sign} {due : Option Bool} {calls' : List (Call Outcome)} (fewer : calls'.Sublist b.calls)
    (present : i < b.sessions.length)
    (own : ∀ s, b.sessions[i]? = some s → Tracked (signs i ++ x.toList) due calls' i (change s))
    (others : ∀ j s, j ≠ i → b.sessions[j]? = some s → Tracked (signs j) none calls' j s) :
    Kept callers (addSign signs i x) (Function.update (fun _ => none) i due)
      { b with sessions := b.sessions.modify i change, calls := calls' } := by
  refine ⟨h.distinct.sublist (fewer.map _), fun c hc => h.minded c (fewer.subset hc), fun j later => ?_,
    fun j s hs => ?_⟩
  · simp only [List.length_modify] at later
    have other : j ≠ i := by omega
    rw [addSign_other signs x other]
    exact h.silent j later
  · simp only [List.getElem?_modify] at hs
    obtain ⟨old, hold, rfl⟩ := Option.map_eq_some_iff.mp hs
    by_cases same : j = i
    · subst same
      simp only [addSign_self, Function.update_self, if_true]
      exact own old hold
    · simp only [addSign_other signs x same, Function.update_of_ne same, Ne.symm same, if_false]
      exact others j old same hold

/-- A resolution that is handed over gives its sign, and its call pays what it owes for it. -/
theorem Kept.deliver (h : Kept callers signs (fun _ => none) b) (i : Nat) :
    Kept callers (addSign signs i (handedSign? callers b i)) (fun _ => none)
      (b.deliverNext i) := by
  cases next : b.sessions[i]?.bind Session.undelivered? with
  | none =>
    simpa [Switchboard.deliverNext, handedSign?, Switchboard.handover?, next, addSign_none] using h
  | some x =>
    obtain ⟨s, here, next⟩ := Option.bind_eq_some_iff.mp next
    obtain ⟨id, tool, goesOn, handed, mem, caller, minds, eq⟩ := h.handover here next
    have sign : handedSign? callers b i = signOf tool x := by simp [handedSign?, handed, caller]
    rw [eq, sign]
    refine Kept.carryOn
      (h.changeSession List.filter_sublist (List.getElem?_eq_some_iff.mp here).1 ?_ ?_)
      (by simp) caller (minds x.result)
    · intro s' here'
      cases here.symm.trans here'
      refine (h.tracked i s here).handOver next tool fun c hc n awaits later => ?_
      refine mem_dropCall h hc mem ?_
      rintro rfl
      simp [Switchboard.awaits] at awaits
      omega
    · intro j s' other hs'
      refine (h.tracked j s' hs').drift (.refl s') fun c hc n awaits _ => ?_
      refine mem_dropCall h hc mem ?_
      rintro rfl
      simp [Switchboard.awaits] at awaits
      exact other awaits.1.symm

/-- A stop that is recorded sets the flag, and that is its sign. -/
theorem Kept.record (h : Kept callers signs (fun _ => none) b) (i : Nat) :
    Kept callers (addSign signs i (recordedSign? b i)) (fun _ => none) (b.make (.record i)) := by
  cases here : b.sessions[i]? with
  | none =>
    have absent : b.sessions.length ≤ i := List.getElem?_eq_none_iff.mp here
    have same : b.make (.record i) = b := by
      simp [Switchboard.make, Switchboard.modify, List.modify_eq_self absent]
    rw [same]
    simpa [recordedSign?, here, addSign_none] using h
  | some s =>
    rw [← Function.update_eq_self i fun _ : Nat => (none : Option Bool)]
    refine h.changeSession (List.Sublist.refl _) (List.getElem?_eq_some_iff.mp here).1 ?_
      fun j s' _ hs' => h.tracked j s' hs'
    intro s' here'
    cases here.symm.trans here'
    have known := h.tracked i s here
    cases recording : s.recording with
    | false => simpa [recordedSign?, here, recording] using known
    | true =>
      cases waiting : s.notices with
      | nil => simpa [recordedSign?, here, recording, Session.record, waiting] using known
      | cons stop rest =>
        have sign : recordedSign? b i = some .stop := by simp [recordedSign?, here, recording, waiting]
        simp only [sign, recording, if_true, Session.record, waiting]
        refine { known with flag := ?_, replies := ?_ }
        · rw [Option.toList_some, Sign.marked_concat]
          rfl
        · rw [List.filterMap_append, known.replies]
          simp [Sign.prompt?]

/-- A wait for a stop that is over owes nothing. -/
theorem Kept.endWait (h : Kept callers signs (fun _ => none) b) {c : Call Outcome} (hc : c ∈ b.calls)
    (stop : Option StopNotice) : Kept callers signs (fun _ => none) (b.endWait c stop) := by
  obtain ⟨tool, caller, minds⟩ := h.minded c hc
  unfold Switchboard.endWait
  split
  next => exact h
  next count deadline goesOn wait =>
    rw [wait] at minds
    have left : Kept callers signs (fun _ => none) (b.dropCall c.id) := by
      refine ⟨h.distinct.sublist (List.filter_sublist.map _),
        fun d hd => h.minded d (List.mem_of_mem_filter hd), h.silent, fun j s hs => ?_⟩
      refine (h.tracked j s hs).drift (.refl s) fun d hd n awaits _ => mem_dropCall h hd hc ?_
      rintro rfl
      simp [Switchboard.awaits, wait] at awaits
    exact left.carryOn_clear (by simp [Switchboard.dropCall]) caller (minds stop)

/-- A call is dropped, and so is its session, where nothing is to be handed over any more. -/
theorem Kept.abandon (h : Kept callers signs (fun _ => none) b) {id place : Nat}
    (home : ∀ c ∈ b.calls, c.id = id → c.session = place)
    (caughtUp : b.sessions[place]?.bind Session.undelivered? = none) :
    Kept callers signs (fun _ => none) ((b.dropCall id).modify place Session.abandon) := by
  refine ⟨h.distinct.sublist (List.filter_sublist.map _),
    fun c hc => h.minded c (List.mem_of_mem_filter hc), by
      simpa [Switchboard.modify, Switchboard.dropCall] using h.silent, fun j x hx => ?_⟩
  simp only [Switchboard.modify, Switchboard.dropCall, List.getElem?_modify] at hx
  obtain ⟨s, hs, rfl⟩ := Option.map_eq_some_iff.mp hx
  have known := h.tracked j s hs
  by_cases same : place = j
  · subst same
    simp only [if_true]
    exact known.abandon (by simpa [hs] using caughtUp) _
  · simp only [same, if_false]
    refine known.drift (.refl s) fun c hc n awaits _ => List.mem_filter.mpr ⟨hc, ?_⟩
    obtain ⟨own, goesOn, rfl⟩ := eq_reply_of_awaits awaits
    simpa using fun dropped => same (home _ hc dropped).symm

/-- What happens on the board without a call gives the signs that the record has. -/
theorem Kept.make (h : Kept callers signs (fun _ => none) b) {m : Switchboard.Move Outcome}
    (unasked : m.unasked = true) :
    Kept callers (movedSigns callers signs b m) (fun _ => none) (b.make m) := by
  cases m with
  | call session task => cases unasked
  | cancel id => cases unasked
  | deliver i => exact h.deliver i
  | relay i event => exact h.modify i _ fun s => ⟨Relay.act_drifts s.relay unasked, rfl, rfl⟩
  | diagnose i bytes => exact h.modify i _ fun s => ⟨.refl _, rfl, rfl⟩
  | record i => exact h.record i
  | endWait id =>
    simp only [Switchboard.make, Switchboard.endWaitOf]
    split
    next => exact h
    next c found =>
      split
      next => exact h.endWait (List.mem_of_find?_eq_some found) _
      next => exact h
  | passTime moment => exact ⟨h.distinct, h.minded, h.silent, h.tracked⟩

/-- A call that goes on keeps its number and its session, and no other call changes. -/
theorem carryOn_grows (b : Switchboard Outcome) (id i : Nat) (task : Task Outcome) :
    (b.carryOn id i task).started = b.started ∧
      ∀ c ∈ (b.carryOn id i task).calls, (c.id = id ∧ c.session = i) ∨ c ∈ b.calls := by
  unfold Switchboard.carryOn
  split
  next => exact ⟨rfl, fun _ hc => Or.inr hc⟩
  next s _ =>
    rcases s.advance b.now task with ⟨t, progress⟩
    cases progress with
    | finished a => exact ⟨rfl, fun _ hc => Or.inr hc⟩
    | waiting wait =>
      refine ⟨rfl, fun c hc => ?_⟩
      rcases List.mem_append.mp hc with old | new
      · exact Or.inr old
      · rw [List.mem_singleton.mp new]
        exact Or.inl ⟨rfl, rfl⟩

/-- A call that was there before, with the same number and the same session. -/
def Stays (calls : List (Call Outcome)) (c : Call Outcome) : Prop :=
  ∃ d ∈ calls, d.id = c.id ∧ d.session = c.session

theorem Stays.of_mem {c : Call Outcome} (hc : c ∈ calls) : Stays calls c := ⟨c, hc, rfl, rfl⟩

/-- No call comes in without being asked for, and the numbering does not go on. -/
theorem make_calls {m : Switchboard.Move Outcome} (unasked : m.unasked = true) :
    (b.make m).started = b.started ∧ ∀ c ∈ (b.make m).calls, Stays b.calls c := by
  have known : ∀ c ∈ b.calls, Stays b.calls c := fun c hc => .of_mem hc
  have goesOn : ∀ (b' : Switchboard Outcome) (d : Call Outcome) (task : Task Outcome),
      d ∈ b.calls → b'.started = b.started → b'.calls = b.calls →
        ((b'.dropCall d.id).carryOn d.id d.session task).started = b.started ∧
          ∀ c ∈ ((b'.dropCall d.id).carryOn d.id d.session task).calls, Stays b.calls c := by
    intro b' d task hd started calls
    obtain ⟨numbered, grows⟩ := carryOn_grows (b'.dropCall d.id) d.id d.session task
    refine ⟨numbered.trans started, fun c hc => ?_⟩
    rcases grows c hc with ⟨number, place⟩ | old
    · exact ⟨d, hd, number.symm, place.symm⟩
    · exact known c (calls ▸ List.mem_of_mem_filter old)
  cases m with
  | call session task => cases unasked
  | cancel id => cases unasked
  | deliver i =>
    simp only [Switchboard.make, Switchboard.deliverNext]
    split
    next => exact ⟨rfl, known⟩
    next x _ =>
      unfold Switchboard.deliver
      simp only
      split
      next id session ticket next found =>
        exact goesOn _ ⟨id, session, .reply ticket next⟩ _ (List.mem_of_find?_eq_some found) rfl rfl
      next => exact ⟨rfl, known⟩
  | relay i event => exact ⟨rfl, known⟩
  | diagnose i bytes => exact ⟨rfl, known⟩
  | record i => exact ⟨rfl, known⟩
  | endWait id =>
    simp only [Switchboard.make, Switchboard.endWaitOf]
    split
    next => exact ⟨rfl, known⟩
    next c found =>
      split
      next =>
        unfold Switchboard.endWait
        split
        next => exact ⟨rfl, known⟩
        next => exact goesOn b c _ (List.mem_of_find?_eq_some found) rfl rfl
      next => exact ⟨rfl, known⟩
  | passTime moment => exact ⟨rfl, known⟩

/-- What is known of the server: that of its board, of the calls that wait for a launch, and of the call
that launches, which is at work on the session it starts. -/
structure Mindful (w : Watched) : Prop where
  board : Kept w.callers w.signs (fun _ => none) w.server.board
  entered : w.callers.length = w.server.board.started
  queued : ∀ x ∈ w.server.waiting, w.callers[x.1]? = some (some x.2)
  single : (w.server.waiting.map (·.1)).Nodup
  apart : ∀ c ∈ w.server.board.calls, c.id ∉ w.server.waiting.map (·.1)
  launch : ∀ l, w.server.launching = some l → l.id < w.server.board.started ∧
    ∀ c ∈ w.server.board.calls, c.id = l.id → c.session = l.place

/-- What is known after a call of number `id` began. -/
structure Begun (callers : List (Option ToolCall)) (signs : Nat → List Sign) (old new : ToolServer)
    (id : Nat) : Prop where
  board : Kept callers signs (fun _ => none) new.board
  started : new.board.started = old.board.started
  waiting : new.waiting = old.waiting
  calls : ∀ c ∈ new.board.calls, c.id = id ∨ c ∈ old.board.calls
  launch : ∀ l, new.launching = some l → (old.launching = some l ∧ new.board.calls = old.board.calls) ∨
    (l.id = id ∧ ∀ c ∈ new.board.calls, c.id = id → c.session = l.place)

theorem answer_begun {server : ToolServer} (h : Kept callers signs (fun _ => none) server.board)
    (id : Nat) (outcome : Outcome) : Begun callers signs server (server.answer id outcome) id :=
  ⟨⟨h.distinct, h.minded, h.silent, h.tracked⟩, rfl, rfl, fun _ hc => Or.inr hc,
    fun _ launching => .inl ⟨launching, rfl⟩⟩

theorem terminate_begun (server : ToolServer) (h : Kept callers signs (fun _ => none) server.board)
    (id : Nat) : Begun callers signs server (server.terminate id) id := by
  have taken : ∀ i, Kept callers signs (fun _ => none) (server.takeAway i).board := fun i =>
    h.modify i (fun s => Session.kill { s with recording := false }) fun s => ⟨.refl _, rfl, rfl⟩
  rcases terminate_cases server id with
    ⟨_, eq⟩ | ⟨i, _, ⟨_, eq⟩ | ⟨x, _, ⟨_, eq⟩ | ⟨_, eq⟩⟩⟩ <;> rw [eq]
  · exact answer_begun h id _
  · exact ⟨taken i, rfl, rfl, fun _ hc => Or.inr hc, fun _ launching => .inl ⟨launching, rfl⟩⟩
  · exact ⟨taken i, rfl, rfl, fun _ hc => Or.inr hc, fun _ launching => .inl ⟨launching, rfl⟩⟩
  · have answered := answer_begun (taken i) id (.ok (.terminated x.exit))
    exact ⟨answered.board, rfl, rfl, fun _ hc => Or.inr hc, fun _ launching => .inl ⟨launching, rfl⟩⟩

theorem begin_begun (server : ToolServer) (h : Kept callers signs (fun _ => none) server.board)
    (free : server.launching = none) {id : Nat} (unused : id ∉ server.board.calls.map (·.id))
    {c : ToolCall} (caller : callers[id]? = some (some c)) :
    Begun callers signs server (server.begin id c) id := by
  rcases begin_cases server id c with
    ⟨choice, rfl, eq⟩ | ⟨rfl, eq⟩ | ⟨task, i, asked, _, eq⟩ | ⟨_, eq⟩ <;> rw [eq]
  · rcases launch_cases server id choice with
      ⟨_, eq⟩ | ⟨_, _, _, _, eq⟩ | ⟨process, executable, _, _, eq⟩ <;> rw [eq]
    · exact answer_begun h id _
    · exact answer_begun h id _
    · have added := h.addSession (started_tracked (.ofProcess process) ⟨.pipe, rfl⟩ rfl rfl)
      have grows := carryOn_grows
        { server.board with sessions := server.board.sessions ++ [Session.ofProcess process] } id
        server.board.sessions.length (ExceptT.run (launchTask (.ofLaunch server.host.environment choice)))
      refine ⟨added.carryOn_clear unused caller (ToolTask.launchTask_minds _), grows.1, rfl,
        fun c hc => (grows.2 c hc).imp_left And.left, ?_⟩
      rintro l ⟨⟩
      refine .inr ⟨rfl, fun c hc own => ?_⟩
      exact ((grows.2 c hc).resolve_right fun old =>
        unused (List.mem_map.mpr ⟨c, old, own⟩)).2
  · exact terminate_begun server h id
  · have grows := carryOn_grows server.board id i (ExceptT.run task)
    exact ⟨h.carryOn_clear unused caller (ToolTask.ofCall_minds asked), grows.1, rfl,
      fun c hc => (grows.2 c hc).imp_left And.left, fun l busy => nomatch free.symm.trans busy⟩
  · exact answer_begun h id _

variable {w : Watched}

theorem Mindful.fresh (h : Mindful w) {c : Call Outcome} (hc : c ∈ w.server.board.calls) :
    c.id < w.server.board.started := by
  obtain ⟨tool, caller, _⟩ := h.board.minded c hc
  exact h.entered ▸ (List.getElem?_eq_some_iff.mp caller).1

theorem Mindful.fresh_waiting (h : Mindful w) {x : Nat × ToolCall} (hx : x ∈ w.server.waiting) :
    x.1 < w.server.board.started :=
  h.entered ▸ (List.getElem?_eq_some_iff.mp (h.queued x hx)).1

theorem caller_grown {id : Nat} {tool : ToolCall} (entry : Option ToolCall)
    (h : callers[id]? = some (some tool)) : (callers ++ [entry])[id]? = some (some tool) := by
  rw [List.getElem?_append_left (List.getElem?_eq_some_iff.mp h).1, h]

theorem Kept.enter (h : Kept callers signs owed b) (entry : Option ToolCall) :
    Kept (callers ++ [entry]) signs owed b.enter := by
  refine ⟨h.distinct, fun c hc => ?_, h.silent, h.tracked⟩
  obtain ⟨tool, caller, minds⟩ := h.minded c hc
  exact ⟨tool, caller_grown entry caller, minds⟩

/-- After a call of a new number entered and perhaps began. -/
theorem Mindful.entered_with (h : Mindful w) (entry : Option ToolCall) {new : ToolServer}
    (begun : Begun (w.callers ++ [entry]) w.signs { w.server with board := w.server.board.enter } new
      w.server.board.started) : Mindful ⟨new, w.callers ++ [entry], w.signs⟩ := by
  have next : new.board.started = w.server.board.started + 1 := begun.started
  refine ⟨begun.board, ?_, fun x hx => ?_, ?_, fun c hc => ?_, fun l launching => ?_⟩
  · simp [next, h.entered]
  · rw [begun.waiting] at hx
    exact caller_grown entry (h.queued x hx)
  · rw [begun.waiting]
    exact h.single
  · rw [begun.waiting]
    rcases begun.calls c hc with new | old
    · intro waits
      obtain ⟨x, hx, same⟩ := List.mem_map.mp waits
      have below := h.fresh_waiting hx
      omega
    · exact h.apart c old
  · simp only [next]
    rcases begun.launch l launching with ⟨before, calls⟩ | ⟨number, home⟩
    · obtain ⟨below, home⟩ := h.launch l before
      exact ⟨Nat.lt_succ_of_lt below, calls ▸ home⟩
    · rw [number]
      exact ⟨Nat.lt_succ_self _, home⟩

theorem Mindful.call (h : Mindful w) (c : ToolCall) : Mindful (w.happen (.call c)) := by
  have entered := h.board.enter (some c)
  change Mindful ⟨w.server.call c, w.callers ++ [some c], w.signs⟩
  unfold ToolServer.call
  simp only
  split
  next =>
    refine ⟨entered, by simp [h.entered, Switchboard.enter], fun x hx => ?_, ?_, fun d hd => ?_,
      fun l launching => (h.launch l launching).imp_left Nat.lt_succ_of_lt⟩
    · rcases List.mem_append.mp hx with old | new
      · exact caller_grown _ (h.queued x old)
      · rw [List.mem_singleton.mp new, ← h.entered]
        simp
    · rw [List.map_append]
      refine List.nodup_append.mpr ⟨h.single, by simp, fun a ha a' ha' same => ?_⟩
      obtain ⟨x, hx, rfl⟩ := List.mem_map.mp ha
      have below := h.fresh_waiting hx
      simp only [List.map_cons, List.map_nil, List.mem_singleton] at ha'
      omega
    · have below := h.fresh hd
      have apart := h.apart d hd
      rw [List.map_append, List.mem_append]
      rintro (old | new)
      · exact apart old
      · simp only [List.map_cons, List.map_nil, List.mem_singleton] at new
        omega
  next free =>
    refine h.entered_with (some c) (begin_begun _ entered (by simpa using free) ?_ ?_)
    · intro used
      obtain ⟨d, hd, same⟩ := List.mem_map.mp used
      have below := h.fresh hd
      omega
    · rw [← h.entered]
      simp

/-- After something in which no call came in or left the line, and no launch began. -/
theorem Mindful.moved (h : Mindful w) {new : ToolServer} {signs : Nat → List Sign}
    (board : Kept w.callers signs (fun _ => none) new.board)
    (started : new.board.started = w.server.board.started)
    (calls : ∀ c ∈ new.board.calls, Stays w.server.board.calls c)
    (waiting : new.waiting = w.server.waiting)
    (launching : ∀ l, new.launching = some l → w.server.launching = some l) :
    Mindful ⟨new, w.callers ++ [], signs⟩ := by
  rw [List.append_nil]
  refine ⟨board, h.entered.trans started.symm, ?_, ?_, fun c hc => ?_, fun l busy => ?_⟩
  · rw [waiting]
    exact h.queued
  · rw [waiting]
    exact h.single
  · obtain ⟨d, hd, same, _⟩ := calls c hc
    rw [waiting, ← same]
    exact h.apart d hd
  · obtain ⟨below, home⟩ := h.launch l (launching l busy)
    refine ⟨started.symm ▸ below, fun c hc own => ?_⟩
    obtain ⟨d, hd, number, place⟩ := calls c hc
    exact place.symm.trans (home d hd (number.trans own))

theorem Mindful.modified (h : Mindful w) {new : ToolServer} (i : Nat) (change : Session → Session)
    (drifts : ∀ s : Session, s.Drifts (change s)) (board : new.board = w.server.board.modify i change)
    (waiting : new.waiting = w.server.waiting)
    (launching : ∀ l, new.launching = some l → w.server.launching = some l) :
    Mindful ⟨new, w.callers ++ [], w.signs⟩ := by
  refine h.moved ?_ ?_ (fun c hc => ?_) waiting launching
  · rw [board]
    exact h.board.modify i change drifts
  · rw [board]
    rfl
  · rw [board] at hc
    exact .of_mem hc

/-- After something that changed nothing but results. -/
theorem Mindful.retold (h : Mindful w) {new : ToolServer} {results : List (Nat × Outcome)}
    (board : new.board = { w.server.board with results }) (waiting : new.waiting = w.server.waiting)
    (launching : new.launching = w.server.launching) : Mindful ⟨new, w.callers ++ [], w.signs⟩ := by
  refine h.moved ?_ ?_ (fun c hc => ?_) waiting fun l busy => launching ▸ busy
  · rw [board]
    exact ⟨h.board.distinct, h.board.minded, h.board.silent, h.board.tracked⟩
  · rw [board]
  · rw [board] at hc
    exact .of_mem hc

theorem Mindful.conclude (h : Mindful w) : Mindful (w.happen .conclude) := by
  change Mindful ⟨w.server.happen .conclude, w.callers ++ [], w.signs⟩
  rcases w.server.conclude_cases with eq | ⟨l, _, _, _, ⟨_, _, eq⟩ | ⟨_, _, eq⟩⟩ <;> rw [eq]
  · exact h.retold rfl rfl rfl
  · exact h.modified l.place (fun s => { s with recording := true }) (fun s => ⟨.refl _, rfl, rfl⟩) rfl
      rfl nofun
  · exact h.modified l.place Session.kill (fun s => ⟨.refl _, rfl, rfl⟩) rfl rfl nofun

theorem Mindful.giveUp (h : Mindful w) : Mindful (w.happen .giveUp) := by
  change Mindful ⟨w.server.happen .giveUp, w.callers ++ [], w.signs⟩
  rcases w.server.giveUp_cases with eq | ⟨l, launching, late, eq⟩ <;> rw [eq]
  · exact h.retold rfl rfl rfl
  · have caughtUp : w.server.board.sessions[l.place]?.bind Session.undelivered? = none := by
      simp only [runsLate, Bool.and_eq_true, Option.isNone_iff_eq_none] at late
      exact late.2
    have left := h.board.abandon (h.launch l launching).2 caughtUp
    exact h.moved ⟨left.distinct, left.minded, left.silent, left.tracked⟩ rfl
      (fun c hc => .of_mem (List.mem_of_mem_filter hc)) rfl nofun

theorem Mindful.resume (h : Mindful w) : Mindful (w.happen .resume) := by
  change Mindful ⟨w.server.resume?.getD w.server, w.callers ++ [], w.signs⟩
  cases resumed : w.server.resume? with
  | none => exact h.retold rfl rfl rfl
  | some new =>
    unfold resume? at resumed
    split at resumed
    next id c rest free waiting =>
      cases resumed
      have single := h.single
      have apart := h.apart
      rw [waiting, List.map_cons, List.nodup_cons] at single
      rw [waiting, List.map_cons] at apart
      have unused : id ∉ w.server.board.calls.map (·.id) := by
        intro used
        obtain ⟨d, hd, same⟩ := List.mem_map.mp used
        exact apart d hd (same ▸ List.mem_cons_self)
      have first : (id, c) ∈ w.server.waiting := by simp [waiting]
      have begun := begin_begun { w.server with waiting := rest } h.board free unused
        (h.queued _ first)
      rw [List.append_nil, Option.getD_some]
      refine ⟨begun.board, h.entered.trans begun.started.symm, fun x hx => ?_, ?_, fun d hd => ?_,
        fun l launching => ?_⟩
      · rw [begun.waiting] at hx
        exact h.queued x (by rw [waiting]; exact List.mem_cons_of_mem _ hx)
      · rw [begun.waiting]
        exact single.2
      · rw [begun.waiting]
        rcases begun.calls d hd with new | old
        · exact new ▸ single.1
        · exact fun later => apart d old (List.mem_cons_of_mem _ later)
      · rcases begun.launch l launching with ⟨busy, _⟩ | ⟨rfl, home⟩
        · cases free.symm.trans busy
        · exact ⟨begun.started.symm ▸ h.fresh_waiting first, home⟩
    next => cases resumed

theorem Mindful.step (h : Mindful w) (e : Happening) : Mindful (w.happen e) := by
  cases e with
  | call c => exact h.call c
  | refuse fault => exact h.entered_with none (answer_begun (h.board.enter none) _ _)
  | attach input =>
    exact h.moved (h.board.addSession (started_tracked _ ⟨input, rfl⟩ rfl rfl)) rfl
      (fun _ hc => .of_mem hc) rfl fun _ busy => busy
  | move m unasked =>
    obtain ⟨started, calls⟩ := make_calls (b := w.server.board) unasked
    exact h.moved (h.board.make unasked) started calls rfl fun _ busy => busy
  | exchange i =>
    refine h.modified i (fun s => s.exchange?.getD s) (fun s => ?_) rfl rfl fun _ busy => busy
    cases eq : s.exchange? with
    | none => exact .refl s
    | some t => exact Session.exchange_drifts eq
  | wake i =>
    refine h.modified i (fun s => s.wake?.getD s) (fun s => ?_) rfl rfl fun _ busy => busy
    cases eq : s.wake? with
    | none => exact .refl s
    | some t => exact Session.wake_drifts eq
  | conclude => exact h.conclude
  | giveUp => exact h.giveUp
  | resume => exact h.resume
  | wrapUp i =>
    change Mindful ⟨w.server.happen (.wrapUp i), w.callers ++ [], w.signs⟩
    rcases w.server.wrapUp_cases i with eq | ⟨_, _, _, _, eq | eq⟩ <;> rw [eq] <;>
      exact h.retold rfl rfl rfl

theorem start_mindful (host : Host) : Mindful (.start host) where
  board := ⟨List.nodup_nil, by simp [Watched.start, ToolServer.start, Switchboard.empty], fun _ _ => rfl,
    by simp [Watched.start, ToolServer.start, Switchboard.empty]⟩
  entered := rfl
  queued := by simp [Watched.start, ToolServer.start]
  single := List.nodup_nil
  apart := by simp [Watched.start, ToolServer.start]
  launch := fun _ none => nomatch none

theorem run_mindful (host : Host) (happenings : List Happening) :
    Mindful ((Watched.start host).run happenings) := by
  have kept : ∀ w, Mindful w → Mindful (w.run happenings) := by
    induction happenings with
    | nil => exact fun w h => h
    | cons e later ih => exact fun w h => ih (w.happen e) (h.step e)
  exact kept _ (start_mindful host)

/-- What the record tells of a run holds of the run without it. -/
theorem run_kept (host : Host) (happenings : List Happening) :
    let w := (Watched.start host).run happenings
    Kept w.callers w.signs (fun _ => none) ((start host).run happenings).board :=
  Watched.run_server (.start host) happenings ▸ (run_mindful host happenings).board

end ToolServer

end PromptRelay
