import PromptRelay.Proofs.WrittenText

namespace PromptRelay.Relay

variable {r s : Relay}

theorem Follows.grows (follows : Follows r s) : r.row <+: s.row ∧ r.resolved <+: s.resolved := by
  obtain ⟨events, rfl⟩ := follows
  exact after_grows r events

theorem Reached.exclusive (h : r.Reached) (isOpen : r.closed = none) : Exclusive r := by
  obtain ⟨input, events, rfl⟩ := h
  exact (after_steady input events isOpen).1

theorem filter_replied_refusals (reason : String) (requests : List Request) :
    (refusals reason requests).filter (·.replied) = [] := by
  simp [refusals, Resolution.replied, Except.toOption]

/-- What is settled after the end has no reply. -/
theorem Ended.settled_since {last : Relay} {reason : String} (h : Ended last reason s) :
    ∃ refused, s.resolved = last.resolved ++ refused ∧ refused.filter (·.replied) = [] := by
  obtain ⟨late, ⟨_, resolved⟩ | ⟨_, _, resolved⟩⟩ := h.settled
  · exact ⟨[], by rw [resolved, List.append_nil], rfl⟩
  · exact ⟨_, resolved, filter_replied_refusals reason _⟩

/-- What an open relay with nothing outstanding writes from then on: the lines of those later requests
that have a reply, and perhaps the line of one more. -/
theorem lines_since (reached : r.Reached) (isOpen : r.closed = none) (idle : r.outstanding = [])
    (follows : Follows r s) :
    ∃ lines, s.written = r.written ++ lines ∧
      lines.Sublist ((s.row.drop r.row.length).filterMap (·.line)) ∧
      ((s.resolved.drop r.row.length).filter (·.replied)).filterMap (·.request.line) <+: lines := by
  obtain ⟨last, later, stillOpen, goesOn⟩ := follows.open_or_ended isOpen
  obtain ⟨written, ⟨more, row⟩, refused, settled, unreplied⟩ :
      s.written = last.written ∧ last.row <+: s.row ∧
        ∃ refused, s.resolved = last.resolved ++ refused ∧ refused.filter (·.replied) = [] := by
    rcases goesOn with rfl | ⟨reason, ended⟩
    · exact ⟨rfl, List.prefix_rfl, [], (List.append_nil _).symm, rfl⟩
    · exact ⟨ended.written, ended.row_prefix, ended.settled_since⟩
  obtain ⟨new, resolved⟩ := later.grows.2
  have flying : r.inFlight.toList = [] := (List.append_eq_nil_iff.mp (List.append_eq_nil_iff.mp idle).1).1
  have before : r.written = (r.resolved.filter (·.replied)).filterMap (·.request.line) := by
    rw [(reached.exclusive isOpen).lines, taken, flying, List.append_nil, List.filterMap_map]
    rfl
  have length : r.row.length = r.resolved.length := by
    rw [Relay.row, idle, List.append_nil, List.length_map]
  have rowSince : s.row.drop r.row.length = new.map (·.request) ++ last.outstanding ++ more := by
    rw [← row, length, Relay.row, ← resolved]
    simp
  have settledSince : s.resolved.drop r.row.length = new ++ refused := by
    rw [settled, ← resolved, length, List.append_assoc, List.drop_left]
  have repliedSince : (s.resolved.drop r.row.length).filter (·.replied) = new.filter (·.replied) := by
    rw [settledSince, List.filter_append, unreplied, List.append_nil]
  refine ⟨(new.filter (·.replied)).filterMap (·.request.line) ++ last.inFlight.toList.filterMap (·.line),
    ?_, ?_, ?_⟩
  · rw [written, ((reached.follows later).exclusive stillOpen).lines, before, taken, ← resolved]
    simp [List.filterMap_append, List.filterMap_map]
  · rw [rowSince, List.filterMap_append, List.filterMap_append, List.filterMap_map]
    refine List.sublist_append_of_sublist_left (List.Sublist.append ?_ ?_)
    · exact List.filter_sublist.filterMap _
    · exact ((List.sublist_append_left _ _).trans (List.sublist_append_left _ _)).filterMap _
  · rw [repliedSince]
    exact List.prefix_append _ _

end PromptRelay.Relay
