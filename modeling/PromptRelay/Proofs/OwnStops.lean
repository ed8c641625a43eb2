import PromptRelay.Proofs.ServerTimeline

namespace PromptRelay.ToolServer

theorem recorded_iff {i : Nat} {t : List Deed} : stopsOn i t ≠ [] ↔ ∃ stop, .recorded i stop ∈ t := by
  constructor
  · intro some
    obtain ⟨stop, mem⟩ := List.exists_mem_of_ne_nil _ some
    obtain ⟨d, hd, told⟩ := List.mem_filterMap.mp mem
    exact ⟨stop, eq_recorded_of_stopOn told ▸ hd⟩
  · rintro ⟨stop, mem⟩ none
    have told : stop ∈ stopsOn i t := List.mem_filterMap.mpr ⟨_, mem, by simp [Deed.stopOn?]⟩
    rw [none] at told
    cases told

/-- The last of all stops is one of the later ones if there are any, and else the last of the earlier
ones. -/
theorem getLast_since {i : Nat} {waiting running : List Deed} {id : Nat} {stop : StopNotice}
    (last : (stopsOn i (waiting ++ .wrote id :: running)).getLast? = some stop) :
    ((∃ own, .recorded i own ∈ running) → (stopsOn i running).getLast? = some stop) ∧
      ((¬ ∃ own, .recorded i own ∈ running) → (stopsOn i waiting).getLast? = some stop) := by
  have parts : stopsOn i (waiting ++ .wrote id :: running) = stopsOn i waiting ++ stopsOn i running := by
    rw [stopsOn_append]
    rfl
  rw [parts, List.getLast?_append] at last
  rw [← recorded_iff]
  constructor
  · intro own
    obtain ⟨x, hx⟩ : ∃ x, (stopsOn i running).getLast? = some x :=
      Option.isSome_iff_exists.mp (by simpa [List.getLast?_isSome] using own)
    rw [hx] at last ⊢
    exact last
  · intro nothing
    rw [not_not.mp nothing] at last
    exact last

/-- A call that resumes the program and comes back at a stop tells the last stop that was recorded since
the call began. So that stop was recorded after the line of the call was written exactly if any was, and
else it is the last one recorded while the call waited for that. -/
theorem resumed_call_tells_last_stop_since_it_began (host : Host)
    (happenings : List Happening) {id : Nat} {stop : StopNotice} {reply : Reply} {outcome : Answer}
    (given : (id, .ok outcome) ∈ ((start host).run happenings).board.results)
    (stopped : outcome = .ran (.stopped stop reply) ∨
      ∃ previous, outcome = .continued (.stopped stop reply) previous) :
    ∃ earlier report later, timeline host happenings = earlier ++ .answered id report :: later ∧
      ∃ i tool before since, earlier = before ++ .began id i tool :: since ∧ tool.resumes = true ∧
        .wrote id ∈ since ∧ ∀ waiting running, since = waiting ++ .wrote id :: running →
          ((stopsOn i running).getLast? = some stop ↔ ∃ own, .recorded i own ∈ running) ∧
          ((¬ ∃ own, .recorded i own ∈ running) → (stopsOn i waiting).getLast? = some stop) := by
  obtain ⟨earlier, later, told⟩ := answered_of_result given
  refine ⟨earlier, _, later, told, ?_⟩
  obtain ⟨previous, report⟩ : ∃ previous, reportOf (.ok outcome) = .resumed (some stop) previous := by
    rcases stopped with rfl | ⟨previous, rfl⟩
    · exact ⟨none, rfl⟩
    · exact ⟨previous, rfl⟩
  have vouched := (run_recounted host happenings).told.vouched _ _ _ _ told
  rw [report] at vouched
  obtain other | ⟨i, tool, before, since, split, wrote, resumes, _, last⟩ := vouched
  · cases other
  · refine ⟨i, tool, before, since, split, resumes, wrote, ?_⟩
    rintro waiting running rfl
    have last := last.resolve_left nofun
    obtain ⟨own, stale⟩ := getLast_since last.symm
    refine ⟨⟨fun here => ?_, own⟩, stale⟩
    rw [← recorded_iff]
    intro nothing
    rw [nothing] at here
    cases here

theorem stopped_of_report {outcome : Outcome} {stop : StopNotice} {previous : Option StopNotice}
    (h : reportOf outcome = .resumed (some stop) previous) :
    ∃ answer reply, outcome = .ok answer ∧ (answer = .ran (.stopped stop reply) ∨
      ∃ previous, answer = .continued (.stopped stop reply) previous) := by
  cases outcome with
  | error fault => cases h
  | ok answer =>
    cases answer with
    | ran outcome =>
      cases outcome with
      | stopped other reply =>
        cases h
        exact ⟨_, reply, rfl, Or.inl rfl⟩
      | finished => cases h
    | continued outcome last =>
      cases outcome with
      | stopped other reply =>
        cases h
        exact ⟨_, reply, rfl, Or.inr ⟨previous, rfl⟩⟩
      | finished => cases h
    | _ => cases h

def breakpointIn (function : String) (line : Nat) : StopNotice :=
  ⟨.breakpoint, [⟨0, function, function, line, 0⟩],
    ["stopped in " ++ function ++ " at line " ++ toString line, toString line ++ ": x = 1"]⟩

/-- A stop is printed and recorded. -/
def stopsIn (function : String) (line : Nat) : List Happening :=
  [.move (.diagnose 0 (utf8Bytes ("\n".intercalate (breakpointIn function line).lines ++ "\n")))
    (Eq.refl true), .move (.record 0) (Eq.refl true)]

def replies (printed : String) : List Happening :=
  [.move (.relay 0 (.output (utf8Bytes printed))) (Eq.refl true), .move (.deliver 0) (Eq.refl true)]

/-- A program that is run and stops. -/
def oneRun : List Happening :=
  [.attach .pipe, .call (.run "a"), .move (.relay 0 .receive) (Eq.refl true)] ++ stopsIn "a" 3 ++
    replies "debug> "

theorem run_told_own_stop :
    ∃ earlier report later, timeline .bare oneRun = earlier ++ .answered 0 report :: later ∧
      ∃ i tool before since, earlier = before ++ .began 0 i tool :: since ∧ .wrote 0 ∈ since ∧
        ∀ waiting running, since = waiting ++ .wrote 0 :: running →
          ((stopsOn i running).getLast? = some (breakpointIn "a" 3) ↔
            ∃ own, .recorded i own ∈ running) := by
  have reports : ((start .bare).run oneRun).board.results.map
      (fun x => (x.1, reportOf x.2)) = [(0, .resumed (some (breakpointIn "a" 3)) none)] := by
    decide +kernel
  obtain ⟨⟨id, outcome⟩, given, same⟩ := List.mem_map.mp (reports ▸ List.mem_singleton_self _)
  obtain ⟨rfl, report⟩ := Prod.mk.inj same
  obtain ⟨answer, reply, rfl, stopped⟩ := stopped_of_report report
  obtain ⟨earlier, report, later, told, i, tool, before, since, split, _, wrote, own⟩ :=
    resumed_call_tells_last_stop_since_it_began .bare oneRun given stopped
  exact ⟨earlier, report, later, told, i, tool, before, since, split, wrote,
    fun waiting running split => (own waiting running split).1⟩

/-- A program is run while another still runs, and the other stops. -/
def overlappingRuns : List Happening :=
  [.attach .pipe, .call (.run "a"), .move (.relay 0 .receive) (Eq.refl true), .call (.run "b"),
    .move (.relay 0 .receive) (Eq.refl true)] ++ stopsIn "a" 3 ++ replies "debug> " ++ replies "debug> "

theorem run_told_stop_of_earlier_run :
    timeline .bare overlappingRuns =
      [.began 0 0 (.run "a"), .wrote 0, .began 1 0 (.run "b"), .recorded 0 (breakpointIn "a" 3),
        .wrote 1, .handed 0 (.run "a") true, .answered 0 (.resumed (some (breakpointIn "a" 3)) none),
        .handed 0 (.run "b") true, .answered 1 (.resumed (some (breakpointIn "a" 3)) none)] := by
  decide +kernel

end PromptRelay.ToolServer
