import PromptRelay.Proofs.ListingRows
import PromptRelay.Proofs.LoneCalls

namespace PromptRelay

/-- The variables whose values a call that lists them asks for, by their names. -/
def fetchedNames (includeValues : Bool) (vs : List Variable) : List String :=
  if includeValues then (vs.filter (·.dims = [1, 1])).map (·.name) else []

/-- What a call writes that lists the variables, as far as the replies tell. The first of them is the
listing. -/
def listingCommands (includeValues : Bool) : List Reply → List String
  | [] => ["whos"]
  | listing :: _ => "whos" :: fetchedNames includeValues (Listing.ofLines listing.lines).entries

/-- What is shown of variables, with the replies to the names of the scalars among them. -/
inductive ShownWith (includeValues : Bool) : List Variable → List Reply → List ListedVariable → Prop
    where
  | nil : ShownWith includeValues [] [] []
  | scalar {v : Variable} {vs : List Variable} {reply : Reply} {replies : List Reply}
      {shown : List ListedVariable} : includeValues = true → v.dims = [1, 1] →
      ShownWith includeValues vs replies shown →
      ShownWith includeValues (v :: vs) (reply :: replies)
        (⟨v, some (reply.shape.text?.getD "")⟩ :: shown)
  | large {v : Variable} {vs : List Variable} {replies : List Reply} {shown : List ListedVariable} :
      includeValues = true → v.dims ≠ [1, 1] → ShownWith includeValues vs replies shown →
      ShownWith includeValues (v :: vs) replies
        (⟨v, some ("x".intercalate (v.dims.map toString) ++ " " ++ v.className ++ " matrix")⟩ :: shown)
  | bare {v : Variable} {vs : List Variable} {replies : List Reply} {shown : List ListedVariable} :
      includeValues = false → ShownWith includeValues vs replies shown →
      ShownWith includeValues (v :: vs) replies (⟨v, none⟩ :: shown)

/-- Each variable is shown, in order, and only scalars have a reply of their own. -/
theorem ShownWith.described {includeValues : Bool} {vs : List Variable} {replies : List Reply}
    {shown : List ListedVariable} (h : ShownWith includeValues vs replies shown) :
    shown.map (·.described) = vs ∧ replies.length = (fetchedNames includeValues vs).length := by
  induction h with
  | nil => simp [fetchedNames]
  | scalar values one _ ih => simp_all [fetchedNames]
  | large values other _ ih => simp_all [fetchedNames]
  | bare values _ ih => simp_all [fetchedNames]

namespace Listing

theorem mem_readRows {v : Variable} {line : Nat} {rows : List (List (List Char))}
    (mem : v ∈ (readRows line rows).entries) : ∃ row ∈ rows, Variable.ofTokens row = .ok v := by
  fun_induction readRows line rows with
  | case1 => cases mem
  | case2 line row rest separator ih =>
    obtain ⟨found, later, read⟩ := ih mem
    exact ⟨found, List.mem_cons_of_mem _ later, read⟩
  | case3 => cases mem
  | case4 line row rest data v' read listing ih =>
    rcases List.mem_cons.mp mem with rfl | later
    · exact ⟨row, List.mem_cons_self, read⟩
    · obtain ⟨found, mem, own⟩ := ih later
      exact ⟨found, List.mem_cons_of_mem _ mem, own⟩

end Listing

theorem Spaced.isToken {ts : List (List Char)} {s : List Char} (h : Spaced ts s) :
    ∀ t ∈ ts, IsToken t := by
  induction h with
  | blanks => exact fun _ none => nomatch none
  | token _ token _ _ ih => exact List.forall_mem_cons.mpr ⟨token, ih⟩

/-- Whatever is printed for a listing, no name in it has a line break. -/
theorem Listing.name_unbroken {v : Variable} {lines : List String}
    (mem : v ∈ (Listing.ofLines lines).entries) : Relay.breaksLine v.name = false := by
  obtain ⟨row, printed, read⟩ := mem_readRows mem
  obtain ⟨line, _, rfl⟩ := List.mem_map.mp printed
  obtain ⟨flags, size, bytes, shape, _⟩ := Variable.ofTokens_eq_ok_iff.mp read
  have named : v.name.toList ∈ tokens line.toList := by
    rcases shape with eq | ⟨_, eq⟩ <;> simp [eq]
  have ink := ((spaced_tokens line.toList).isToken _ named).ink
  refine List.any_eq_false.mpr fun c here => ?_
  have noBlank := ink c here
  simp only [Bool.or_eq_true, beq_iff_eq]
  rintro (rfl | rfl) <;> simp [isBlank] at noBlank

theorem listingCommands_unbroken {includeValues : Bool} {replies : List Reply} {command : String}
    (mem : command ∈ listingCommands includeValues replies) : Relay.breaksLine command = false := by
  cases replies with
  | nil =>
    rw [List.mem_singleton.mp mem]
    decide
  | cons listing rest =>
    rcases List.mem_cons.mp mem with rfl | fetched
    · decide
    · unfold fetchedNames at fetched
      split at fetched
      · obtain ⟨v, chosen, rfl⟩ := List.mem_map.mp fetched
        exact Listing.name_unbroken (List.mem_filter.mp chosen).1
      · cases fetched

namespace ToolTask

/-- What a call that lists the variables does with a result: it goes on with a reply. -/
def onListed (goOn : Reply → Task Outcome) : Except Fault Reply → Task Outcome
  | .error fault => .done (.error (.failed "octave_variables" fault))
  | .ok reply => goOn reply

/-- Values are fetched one after the other, and what comes of them all is told at the end. -/
def fetching (includeValues : Bool) : List Variable → (List ListedVariable → Outcome) → Task Outcome
  | [], finish => .done (finish [])
  | v :: rest, finish =>
    if includeValues && v.isScalar then
      .request (some v.name) (onListed fun reply =>
        fetching includeValues rest fun shown => finish (⟨v, some (v.valueIn reply)⟩ :: shown))
    else
      fetching includeValues rest fun shown =>
        finish (⟨v, if includeValues then some v.placeholder else none⟩ :: shown)

def finishing (finish : List ListedVariable → Outcome) :
    Except ToolFault (List ListedVariable) → Task Outcome
  | .ok shown => .done (finish shown)
  | .error fault => .done (.error fault)

theorem run_listedVariables (includeValues : Bool) (vs : List Variable)
    (finish : List ListedVariable → Outcome) :
    (ExceptT.run (listedVariables includeValues vs)).bind (finishing finish) =
      fetching includeValues vs finish := by
  induction vs generalizing finish with
  | nil => rfl
  | cons v rest ih =>
    have goesOn : ∀ value, (ExceptT.run (do
        return ⟨v, value⟩ :: (← listedVariables includeValues rest) : ToolTask (List ListedVariable))).bind
          (finishing finish) = fetching includeValues rest fun shown => finish (⟨v, value⟩ :: shown) := by
      intro value
      rw [← ih, ExceptT.run_bind]
      change Task.bind (Task.bind _ _) _ = _
      rw [Task.bind_assoc]
      congr 1
      funext result
      cases result <;> rfl
    cases includeValues with
    | false => exact goesOn none
    | true =>
      cases scalar : v.isScalar with
      | false =>
        simp only [fetching, listedVariables, Operation.value, scalar]
        exact goesOn (some v.placeholder)
      | true =>
        simp only [fetching, listedVariables, Operation.value, scalar]
        change Task.request (some v.name) _ = Task.request _ _
        congr 1
        funext result
        cases result with
        | error => rfl
        | ok reply => exact goesOn (some (v.valueIn reply))

theorem run_list (includeValues : Bool) : ExceptT.run (list includeValues) =
    .request (some "whos") (onListed fun reply =>
      fetching includeValues (Listing.ofLines reply.lines).entries fun shown =>
        .ok (.listed shown (Listing.ofLines reply.lines).fault)) := by
  change Task.request (some "whos") _ = Task.request _ _
  congr 1
  funext result
  cases result with
  | error => rfl
  | ok reply =>
    refine Eq.trans ?_ (run_listedVariables includeValues _ _)
    change (ExceptT.run (listedVariables includeValues (Listing.ofLines reply.lines).entries)).bind _ = _
    congr 1
    funext result
    cases result <;> rfl

theorem fetching_stopsAtFault (includeValues : Bool) (vs : List Variable)
    (finish : List ListedVariable → Outcome) :
    (fetching includeValues vs finish).StopsAtFault "octave_variables" := by
  induction vs generalizing finish with
  | nil => trivial
  | cons v rest ih =>
    unfold fetching
    split
    · exact ⟨fun fault => rfl, fun reply => ih _⟩
    · exact ih _

theorem list_stopsAtFault (includeValues : Bool) :
    (ExceptT.run (list includeValues)).StopsAtFault "octave_variables" := by
  rw [run_list]
  exact ⟨fun fault => rfl, fun reply => fetching_stopsAtFault includeValues _ _⟩

variable {includeValues : Bool} {vs : List Variable} {finish : List ListedVariable → Outcome}
  {exchanges : List (Option String × Reply)} {left : Task Outcome}

/-- Where the fetching is after some of its requests: at the next one, or at its end. -/
theorem fetching_leads (leads : (fetching includeValues vs finish).Leads exchanges left) :
    (∃ asked name more next, left = .request (some name) next ∧
      exchanges.map (·.1) = asked.map some ∧
      fetchedNames includeValues vs = asked ++ name :: more) ∨
    ∃ shown, left = .done (finish shown) ∧
      exchanges.map (·.1) = (fetchedNames includeValues vs).map some ∧
      ShownWith includeValues vs (exchanges.map (·.2)) shown := by
  -- Only a scalar whose value is asked for makes a request; what is shown of the others is known at once.
  induction vs generalizing finish exchanges with
  | nil =>
    cases leads
    exact .inr ⟨[], rfl, by simp [fetchedNames], .nil⟩
  | cons v rest ih =>
    by_cases asks : includeValues && v.isScalar
    · obtain ⟨rfl, one⟩ : includeValues = true ∧ v.dims = [1, 1] := by
        simpa [Variable.isScalar] using asks
      have names : fetchedNames true (v :: rest) = v.name :: fetchedNames true rest := by
        simp [fetchedNames, one]
      simp only [fetching, asks, if_true] at leads
      cases leads with
      | start => exact .inl ⟨[], v.name, _, _, rfl, rfl, names⟩
      | @reply _ _ reply exchanges left leads =>
        rcases ih leads with ⟨asked, name, more, next, rfl, lines, later⟩ | ⟨shown, rfl, lines, told⟩
        · exact .inl ⟨v.name :: asked, name, more, next, rfl, by simp [lines], by simp [names, later]⟩
        · refine .inr ⟨_, rfl, by simp [names, lines], ?_⟩
          have value : v.valueIn reply = reply.shape.text?.getD "" := by
            simp [Variable.valueIn, Variable.isScalar, one]
          rw [value]
          exact .scalar rfl one told
    · have names : fetchedNames includeValues (v :: rest) = fetchedNames includeValues rest := by
        cases includeValues with
        | false => rfl
        | true =>
          have other : v.dims ≠ [1, 1] := by simpa [Variable.isScalar] using asks
          simp [fetchedNames, other]
      simp only [fetching, asks, Bool.false_eq_true, if_false] at leads
      rw [names]
      rcases ih leads with asked | ⟨shown, rfl, lines, told⟩
      · exact .inl asked
      · refine .inr ⟨_, rfl, lines, ?_⟩
        cases includeValues with
        | false => exact .bare rfl told
        | true => exact .large rfl (by simpa [Variable.isScalar] using asks) told

/-- Where a call that lists the variables is after some of its requests. -/
theorem list_leads (leads : (ExceptT.run (list includeValues)).Leads exchanges left) :
    let replies := exchanges.map (·.2)
    let commands := listingCommands includeValues replies
    (∃ asked name more next, left = .request (some name) next ∧
      exchanges.map (·.1) = asked.map some ∧ commands = asked ++ name :: more) ∨
    ∃ listing fetched shown, replies = listing :: fetched ∧
      left = .done (.ok (.listed shown (Listing.ofLines listing.lines).fault)) ∧
      exchanges.map (·.1) = commands.map some ∧
      ShownWith includeValues (Listing.ofLines listing.lines).entries fetched shown := by
  rw [run_list] at leads
  cases leads with
  | start => exact .inl ⟨[], "whos", [], _, rfl, rfl, rfl⟩
  | @reply _ _ listing exchanges left leads =>
    rcases fetching_leads leads with ⟨asked, name, more, next, rfl, lines, later⟩ | ⟨shown, rfl, lines, told⟩
    · exact .inl ⟨"whos" :: asked, name, more, next, rfl, by simp [lines],
        by simp [listingCommands, later]⟩
    · exact .inr ⟨listing, exchanges.map (·.2), shown, rfl, rfl, by simp [listingCommands, lines], told⟩

end ToolTask

namespace ToolServer

open Session (handedSince)

/-- The commands that have a reply, each with its reply. -/
def withReplies (commands : List String) (replies : List Reply) :
    List (Option String × Except Fault Reply) :=
  (commands.zip replies).map fun (command, reply) => (some command, .ok reply)

theorem replied_eq_withReplies {asked : List String} {exchanges : List (Option String × Reply)}
    (lines : exchanges.map (·.1) = asked.map some) (more : List String) :
    replied exchanges = withReplies (asked ++ more) (exchanges.map (·.2)) := by
  induction exchanges generalizing asked with
  | nil => simp [replied, withReplies]
  | cons first rest ih =>
    cases asked with
    | nil => cases lines
    | cons command asked =>
      obtain ⟨own, later⟩ := List.cons.inj lines
      have told := ih later
      simp only [replied, withReplies, List.map_cons, List.cons_append, List.zip_cons_cons] at told ⊢
      rw [told, show first.1 = some command from own]

/-- How far a call has come that lists the variables, on session `i` since that was `x`: it waits for the
reply to its next command, it told what is shown, or it failed with a command that got a fault or found
the session closed. -/
inductive FetchStage (includeValues : Bool) (id i : Nat) (x y : Session) (b : Switchboard Outcome)
    (replies : List Reply) (written : List String) : Prop where
  | waits {command : String} {next : Except Fault Reply → Task Outcome}
      (upTo : (listingCommands includeValues replies)[replies.length]? = some command)
      (handed : handedSince x y = withReplies (listingCommands includeValues replies) replies)
      (pending : y.pending = [some command])
      (call : b.callsOn i = [⟨id, i, .reply y.delivered next⟩]) (told : b.toldTo id = []) :
      FetchStage includeValues id i x y b replies written
  | listed {listing : Reply} {values : List Reply} {shown : List ListedVariable}
      (all : written = listingCommands includeValues replies)
      (handed : handedSince x y = withReplies (listingCommands includeValues replies) replies)
      (pending : y.pending = []) (ended : b.callsOn i = []) (first : replies = listing :: values)
      (told : b.toldTo id = [.ok (.listed shown (Listing.ofLines listing.lines).fault)])
      (described : shown.map (·.described) = (Listing.ofLines listing.lines).entries)
      (shows : ShownWith includeValues (Listing.ofLines listing.lines).entries values shown) :
      FetchStage includeValues id i x y b replies written
  | failed {command : String} {fault : Fault}
      (upTo : (listingCommands includeValues replies)[replies.length]? = some command)
      (handed : handedSince x y =
        withReplies (listingCommands includeValues replies) replies ++ [(some command, .error fault)])
      (pending : y.pending = []) (ended : b.callsOn i = [])
      (told : b.toldTo id = [.error (.failed "octave_variables" fault)])
      (valid : ∀ detail, fault ≠ .invalidCommand detail) :
      FetchStage includeValues id i x y b replies written
  | closed {command reason : String}
      (upTo : (listingCommands includeValues replies)[replies.length]? = some command)
      (handed : handedSince x y = withReplies (listingCommands includeValues replies) replies)
      (unwritten : written.length = replies.length) (pending : y.pending = []) (ended : b.callsOn i = [])
      (told : b.toldTo id = [.error (.failed "octave_variables" (.terminated reason))])
      (closed : y.relay.closed = some reason) : FetchStage includeValues id i x y b replies written

/-- What such a call has written, after what was written before it: its first commands, one for each
reply and perhaps one more. -/
structure Fetches (includeValues : Bool) (id i : Nat) (x y : Session) (b : Switchboard Outcome)
    (replies : List Reply) (written : List String) : Prop where
  wrote : y.relay.written = x.relay.written ++ written
  first : written <+: listingCommands includeValues replies
  count : written.length = replies.length ∨ written.length = replies.length + 1
  stage : FetchStage includeValues id i x y b replies written

section Commands

variable {exchanges : List (Option String × Reply)} {asked more commands written : List String}
  {name : String}

theorem filterMap_asked (lines : exchanges.map (·.1) = asked.map some) :
    exchanges.filterMap (·.1) = asked := by
  have same := congrArg (List.filterMap fun line => line) lines
  rw [List.filterMap_map, List.filterMap_map] at same
  exact same.trans List.filterMap_some

/-- The requests so far are those of the first commands, and `name` is the next of these. -/
theorem asked_upTo (lines : exchanges.map (·.1) = asked.map some) (own : commands = asked ++ name :: more) :
    commands[(exchanges.map (·.2)).length]? = some name ∧
      replied exchanges = withReplies commands (exchanges.map (·.2)) ∧
      exchanges.filterMap (·.1) = commands.take (exchanges.map (·.2)).length := by
  have count : (exchanges.map (·.2)).length = asked.length := by
    simpa using congrArg List.length lines
  rw [own, count, filterMap_asked lines, List.take_left]
  exact ⟨by simp, replied_eq_withReplies lines _, rfl⟩

/-- What was written is all that was asked before, with the next command or without it. -/
theorem written_upTo {n : Nat} (next : commands[n]? = some name) (starts : commands.take n <+: written)
    (within : written.Sublist (commands.take n ++ [name])) :
    written <+: commands ∧ (written.length = n ∨ written.length = n + 1) := by
  have below := (List.getElem?_eq_some_iff.mp next).1
  have longer : commands.take (n + 1) = commands.take n ++ [name] := by
    rw [List.take_add_one, next, Option.toList_some]
  obtain ⟨rest, rfl⟩ := starts
  rcases List.sublist_singleton.mp ((List.append_sublist_append_left _).mp within) with rfl | rfl
  · rw [List.append_nil, List.length_take]
    exact ⟨List.take_prefix n commands, .inl (by omega)⟩
  · rw [← longer, List.length_take]
    exact ⟨List.take_prefix (n + 1) commands, .inr (by omega)⟩

end Commands

section Stages

variable {includeValues : Bool} {id i : Nat} {x y : Session} {b : Switchboard Outcome}
  {exchanges : List (Option String × Reply)} {line : Option String}
  {next : Except Fault Reply → Task Outcome}

/-- A call whose requests are those of the first commands has written these, or one more. -/
theorem Onward.writes (h : Onward i x b y) (rested : Rested x)
    {rest : List (Option String × Except Fault Reply)}
    (handed : handedSince x y = replied exchanges ++ rest)
    (failed : ∀ p ∈ rest, ∃ fault, p.2 = .error fault) {commands : List String} {name : String} {n : Nat}
    (unanswered : rest.map (·.1) ++ y.pending = [some name])
    (taken : exchanges.filterMap (·.1) = commands.take n) (upTo : commands[n]? = some name) :
    ∃ written, y.relay.written = x.relay.written ++ written ∧ written <+: commands ∧
      (written.length = n ∨ written.length = n + 1) := by
  obtain ⟨written, wrote, starts, within⟩ := h.lines rested handed failed
  rw [taken] at starts within
  rw [unanswered] at within
  exact ⟨written, wrote, written_upTo upTo starts within⟩

/-- No request that was let in is refused for its line. -/
theorem Onward.valid (h : Onward i x b y) {fault : Fault} (mem : (line, .error fault) ∈ handedSince x y)
    (detail : String) : fault ≠ .invalidCommand detail := by
  rintro rfl
  obtain ⟨r, given, own⟩ := List.mem_map.mp mem
  have regular := h.orderly.regular r (List.mem_of_mem_take (List.mem_of_mem_drop given))
  have result : r.result = .error (.invalidCommand detail) := (Prod.mk.inj own).2
  simp [Resolution.Regular, result] at regular

/-- The next request of a call that lists the variables is for the next command. -/
theorem next_command
    (leads : (ExceptT.run (ToolTask.list includeValues)).Leads exchanges (.request line next)) :
    let commands := listingCommands includeValues (exchanges.map (·.2))
    ∃ command, line = some command ∧ commands[(exchanges.map (·.2)).length]? = some command ∧
      replied exchanges = withReplies commands (exchanges.map (·.2)) ∧
      exchanges.filterMap (·.1) = commands.take (exchanges.map (·.2)).length := by
  rcases ToolTask.list_leads leads with
    ⟨asked, name, more, next, eq, own, commands⟩ | ⟨_, _, _, _, eq, _⟩
  · cases eq
    exact ⟨name, rfl, asked_upTo own commands⟩
  · cases eq

theorem Onward.listed (h : Onward i x b y) (rested : Rested x) {outcome : Outcome}
    (leads : (ExceptT.run (ToolTask.list includeValues)).Leads exchanges (.done outcome))
    (handed : handedSince x y = replied exchanges) (pending : y.pending = [])
    (ended : b.callsOn i = []) (told : b.toldTo id = [outcome]) :
    ∃ written, Fetches includeValues id i x y b (exchanges.map (·.2)) written := by
  rcases ToolTask.list_leads leads with
    ⟨_, _, _, _, eq, _⟩ | ⟨listing, values, shown, replies, eq, own, shows⟩
  · cases eq
  · cases eq
    obtain ⟨written, wrote, starts, within⟩ :=
      h.lines rested (handed.trans (List.append_nil _).symm) nofun
    rw [pending, filterMap_asked own] at within
    rw [filterMap_asked own] at starts
    have all : written = listingCommands includeValues (exchanges.map (·.2)) :=
      (by simpa using within : written.Sublist _).antisymm starts.sublist
    have given := replied_eq_withReplies own []
    rw [List.append_nil] at given
    refine ⟨written, wrote, all ▸ List.prefix_rfl, .inl ?_,
      .listed all (handed.trans given) pending ended replies told shows.described.1 shows⟩
    rw [all]
    simpa using (congrArg List.length own).symm

theorem Onward.turnedAway (h : Onward i x b y) (rested : Rested x) {fault : Fault}
    (leads : (ExceptT.run (ToolTask.list includeValues)).Leads exchanges (.request line next))
    (handed : handedSince x y = replied exchanges)
    (refusal : (∃ reason, fault = .terminated reason ∧ y.relay.closed = some reason) ∨
      ∃ l, line = some l ∧ Relay.breaksLine l = true)
    (pending : y.pending = []) (ended : b.callsOn i = [])
    (told : b.toldTo id = [.error (.failed "octave_variables" fault)]) :
    ∃ written, Fetches includeValues id i x y b (exchanges.map (·.2)) written := by
  obtain ⟨command, rfl, upTo, given, taken⟩ := next_command leads
  -- The names of a listing are not broken, so the session had closed.
  have unbroken := listingCommands_unbroken (List.mem_of_getElem? upTo)
  obtain ⟨reason, rfl, closed⟩ := refusal.resolve_right (by simp [unbroken])
  obtain ⟨written, wrote, starts, within⟩ :=
    h.lines rested (handed.trans (List.append_nil _).symm) nofun
  rw [taken] at starts within
  rw [pending] at within
  have all := (by simpa using within : written.Sublist _).antisymm starts.sublist
  have below := (List.getElem?_eq_some_iff.mp upTo).1
  have length : written.length = (exchanges.map (·.2)).length := by
    rw [all, List.length_take]
    omega
  exact ⟨written, wrote, all ▸ List.take_prefix _ _, .inl length,
    .closed upTo (handed.trans given) length pending ended told closed⟩

theorem Lone.fetches
    (h : Lone "octave_variables" (ExceptT.run (ToolTask.list includeValues)) id i x b y)
    (rested : Rested x) : ∃ replies written, Fetches includeValues id i x y b replies written := by
  cases h.stage with
  | asks leads handed pending waits told =>
    obtain ⟨command, rfl, upTo, given, taken⟩ := next_command leads
    obtain ⟨written, wrote, first, count⟩ :=
      h.writes rested (handed.trans (List.append_nil _).symm) nofun pending taken upTo
    exact ⟨_, written, wrote, first, count, .waits upTo (handed.trans given) pending waits told⟩
  | done leads handed pending ended told => exact ⟨_, h.listed rested leads handed pending ended told⟩
  | failed leads handed pending ended told =>
    obtain ⟨command, rfl, upTo, given, taken⟩ := next_command leads
    obtain ⟨written, wrote, first, count⟩ :=
      h.writes rested handed (by simp) (by simp [pending]) taken upTo
    have valid := h.valid (handed ▸ List.mem_append_right _ (List.mem_singleton_self _))
    exact ⟨_, written, wrote, first, count,
      .failed upTo (handed.trans (congrArg (· ++ _) given)) pending ended told valid⟩
  | refused leads handed refusal pending ended told =>
    exact ⟨_, h.turnedAway rested leads handed refusal pending ended told⟩

end Stages

/-- A call that lists the variables, with no other call on its session: it writes `whos`, and then, if
values are asked for, the names of the scalars of the listing, in order, one after the reply to the one
before, and nothing else. Each reply belongs to its own command, no command is refused for what `whos`
printed, and with the first fault the call fails and writes no more. -/
theorem scalars_of_listing_are_fetched (host : Host) (before : List Happening)
    (e : Happening) (later : List Happening) {id i : Nat} {x : Session} {includeValues : Bool} :
    let s := (start host).run before
    let t := (start host).run (before ++ e :: later)
    s.begins? e = some (id, .list includeValues) → s.current = some i →
      s.board.sessions[i]? = some x → x.relay.closed = none → s.board.callsOn i = [] →
      begunOn i (timeline host (before ++ e :: later)) =
        begunOn i (timeline host before) ++ [id] →
    ∃ y replies written, t.board.sessions[i]? = some y ∧
      Fetches includeValues id i x y t.board replies written := by
  intro s t begins current here isOpen nobody alone
  obtain ⟨y, lone⟩ := run_lone begins rfl (ToolTask.list_stopsAtFault includeValues) current here
    nobody alone
  obtain ⟨replies, written, fetches⟩ := lone.fetches (run_rested here isOpen nobody)
  exact ⟨y, replies, written, lone.here, fetches⟩

/-- The REPL lists a scalar and a matrix, and then prints the scalar. -/
def scalarPrinted : List Happening :=
  let listing := "\n".intercalate ["Variables:", "", "Attr Name Size Bytes Class", "==== ==== ====",
    " x 1x1 8 double", " A 2x3 48 double", "", "Total is 7", "", "octave:2> "]
  [.move (.relay 0 .receive) (Eq.refl true),
    .move (.relay 0 (.output (utf8Bytes listing))) (Eq.refl true), .move (.deliver 0) (Eq.refl true),
    .move (.relay 0 .receive) (Eq.refl true),
    .move (.relay 0 (.output (utf8Bytes "x = 5\noctave:3> "))) (Eq.refl true),
    .move (.deliver 0) (Eq.refl true)]

theorem scalar_is_fetched_and_matrix_is_not :
    let s := (start .bare).run [.attach .pipe]
    let t := (start .bare).run ([.attach .pipe] ++ .call (.list true) :: scalarPrinted)
    ∃ x y replies, s.board.sessions[0]? = some x ∧ t.board.sessions[0]? = some y ∧
      y.relay.written = ["whos", "x"] ∧ Fetches true 0 0 x y t.board replies ["whos", "x"] ∧
      (t.board.toldTo 0).map (fun outcome => match outcome with
        | .ok (.listed shown none) => shown.map fun v => (v.described.name, v.value)
        | _ => []) = [[("x", some "5"), ("A", some "2x3 double matrix")]] := by
  intro s t
  have begins : s.begins? (.call (.list true)) = some (0, .list true) := rfl
  have current : s.current = some 0 := rfl
  have here : s.board.sessions[0]? = some { Session.start .pipe false with recording := true } := rfl
  have alone : begunOn 0 (timeline .bare ([.attach .pipe] ++ .call (.list true) ::
      scalarPrinted)) = begunOn 0 (timeline .bare [.attach .pipe]) ++ [0] := by
    decide +kernel
  obtain ⟨y, replies, written, there, fetches⟩ :=
    scalars_of_listing_are_fetched .bare [.attach .pipe] (.call (.list true)) scalarPrinted
      begins current here rfl rfl alone
  have lines : t.board.sessions[0]?.map (·.relay.written) = some ["whos", "x"] := by decide +kernel
  simp only [t, there, Option.map_some] at lines
  obtain rfl : written = ["whos", "x"] := fetches.wrote.symm.trans (Option.some.inj lines)
  exact ⟨_, y, replies, here, there, fetches.wrote, fetches, by decide +kernel⟩

end ToolServer

end PromptRelay
