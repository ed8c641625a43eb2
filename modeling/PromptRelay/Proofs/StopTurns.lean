import PromptRelay.Proofs.StopDetection
import PromptRelay.Proofs.Transcript

namespace PromptRelay

open LineBuffer (newline decodeLine pieces joinLines joinLines_append pieces_joinLines Cut)

namespace StopScanner

/-- Where an open scanner is in these lines: it has not read the last bytes of them. -/
def Reads (s : StopScanner) (lines : List (List UInt8)) (unread : List UInt8) : Prop :=
  ∃ kept, s.isOpen = true ∧ s.buffer = (LineBuffer.empty.push kept).keepLast maxLines ∧
    kept ++ unread = joinLines lines

variable {s : StopScanner} {lines : List (List UInt8)} {unread rest chunk : List UInt8}

theorem start_reads : start.Reads [] [] := ⟨[], rfl, rfl, rfl⟩

theorem Reads.grow (h : s.Reads lines unread) (more : List (List UInt8)) :
    s.Reads (lines ++ more) (unread ++ joinLines more) := by
  obtain ⟨kept, isOpen, buffer, eq⟩ := h
  refine ⟨kept, isOpen, buffer, ?_⟩
  rw [← List.append_assoc, eq, joinLines_append]

/-- Where no banner ends in what was read, the scanner goes on. -/
theorem Reads.read_on (h : s.Reads lines (chunk ++ rest))
    (misses : ∀ kept, kept ++ rest = joinLines lines →
      endsInBanner (LineBuffer.empty.push kept).view = false) :
    (s.read chunk).2 = none ∧ (s.read chunk).1.Reads lines rest := by
  obtain ⟨kept, isOpen, buffer, eq⟩ := h
  rw [← List.append_assoc] at eq
  rw [read_kept isOpen buffer, misses _ eq, if_neg Bool.false_ne_true]
  exact ⟨rfl, kept ++ chunk, isOpen, rfl, eq⟩

theorem Reads.read_quiet (h : s.Reads lines (chunk ++ rest)) (whole : ∀ line ∈ lines, newline ∉ line)
    (quiet : Quiet lines) : (s.read chunk).2 = none ∧ (s.read chunk).1.Reads lines rest := by
  refine h.read_on fun kept eq => Bool.eq_false_iff.mpr fun ends => ?_
  have calm : Quiet (pieces (joinLines lines)).dropLast := by
    have cut := pieces_joinLines whole []
    rw [List.append_nil, LineBuffer.pieces_whole List.not_mem_nil] at cut
    rwa [cut, List.dropLast_concat]
  have within : kept <+: bytesOf [] ++ joinLines lines := ⟨rest, eq⟩
  obtain ⟨earlier, b, later, none, _⟩ := (endsInBanner_iff calm within).mp ends
  simp at none

theorem quiet_nil : Quiet [] := quiet_of_length_le (Nat.zero_le 1)

/-- Short of its last byte a banner is not found, and with it it is. -/
theorem ends_iff_whole (b : Banner) {kept : List UInt8} (eq : kept ++ rest = joinLines b.lines) :
    endsInBanner (LineBuffer.empty.push kept).view = true ↔ rest = [] := by
  have stream : bytesOf [b] ++ [] = joinLines b.lines := by simp [bytesOf]
  have within : kept <+: bytesOf [b] ++ [] := ⟨rest, eq.trans stream.symm⟩
  have calm : Quiet (pieces []).dropLast := quiet_nil
  rw [endsInBanner_iff calm within]
  constructor
  · rintro ⟨earlier, c, later, split, x, ends, _⟩
    have one : bytesOf (earlier ++ [c]) = joinLines b.lines := by
      cases earlier with
      | nil =>
        cases split
        simp [bytesOf]
      | cons d earlier => simp at split
    have lengths := congrArg List.length eq
    rw [ends, one] at lengths
    simp only [List.length_append] at lengths
    exact List.eq_nil_of_length_eq_zero (by omega)
  · rintro rfl
    refine ⟨[], b, [], rfl, [], ?_, List.not_mem_nil, by decide⟩
    rw [List.append_nil] at eq stream ⊢
    exact eq.trans stream.symm

theorem joinLines_count {lines : List (List UInt8)} (whole : ∀ line ∈ lines, newline ∉ line) :
    (joinLines lines).count newline = lines.length := by
  have cut : Cut (joinLines lines) lines [] := ⟨(List.append_nil _).symm, whole, List.not_mem_nil⟩
  exact cut.count

/-- The end of lines is a newline, so what is short of it has fewer of them. -/
theorem count_short {kept : List UInt8} (whole : ∀ line ∈ lines, newline ∉ line) (nonempty : chunk ≠ [])
    (eq : kept ++ chunk = joinLines lines) : kept.count newline + 1 ≤ lines.length := by
  have last : newline ∈ chunk := by
    rcases List.eq_nil_or_concat' lines with rfl | ⟨init, line, rfl⟩
    · exact absurd (List.append_eq_nil_iff.mp eq).2 nonempty
    · have ends := congrArg List.getLast? eq
      rw [joinLines_append, List.getLast?_append_of_ne_nil _ nonempty] at ends
      have final : (joinLines init ++ joinLines [line]).getLast? = some newline := by
        simp [joinLines]
      exact List.mem_of_getLast? (ends.trans final)
  have total := joinLines_count whole
  rw [← eq, List.count_append] at total
  have one := List.count_pos_iff.mpr last
  omega

/-- The chunk that ends a banner gives its notice, and the scanner begins anew. -/
theorem Reads.read_banner (b : Banner) (nonempty : chunk ≠ []) (h : s.Reads b.lines chunk) :
    (∃ lost, lost ≤ b.before.length + 1 - maxLines ∧ (s.read chunk).2 =
      some (.ofLines ((b.before.drop lost ++ [b.first, b.second]).map decodeLine))) ∧
      (s.read chunk).1.Reads [] [] := by
  obtain ⟨kept, isOpen, buffer, eq⟩ := h
  have all : kept ++ chunk ++ [] = joinLines b.lines := by rw [List.append_nil, eq]
  have ends := (ends_iff_whole b all).mpr rfl
  have few := count_short b.whole nonempty eq
  have pushed : (LineBuffer.empty.push (kept ++ chunk)).lines = b.lines.map decodeLine := by
    have cut : Cut (kept ++ chunk) b.lines [] :=
      ⟨by rw [eq, List.append_nil], b.whole, List.not_mem_nil⟩
    rw [cut.push]
  rw [read_kept isOpen buffer, if_pos ends, pushed]
  refine ⟨⟨kept.count newline - maxLines, ?_, ?_⟩, [], isOpen, rfl, rfl⟩
  · simp only [List.length_append, List.length_cons, List.length_nil] at few
    omega
  · have within : kept.count newline - maxLines ≤ b.before.length := by
      have room : maxLines = 1024 := rfl
      simp only [List.length_append, List.length_cons, List.length_nil] at few
      omega
    rw [← List.map_drop, Banner.lines, List.drop_append_of_le_length within]

theorem Reads.readAll_quiet {chunks : List (List UInt8)} (h : s.Reads lines (chunks.flatten ++ rest))
    (whole : ∀ line ∈ lines, newline ∉ line) (quiet : Quiet lines) :
    (s.readAll chunks).2 = [] ∧ (s.readAll chunks).1.Reads lines rest := by
  induction chunks generalizing s with
  | nil => exact ⟨rfl, h⟩
  | cons chunk later ih =>
    rw [List.flatten_cons, List.append_assoc] at h
    obtain ⟨nothing, on⟩ := h.read_quiet whole quiet
    obtain ⟨silent, read⟩ := ih on
    simp only [readAll, nothing, silent]
    exact ⟨rfl, read⟩

/-- However a banner is cut, its notice comes with its last byte. -/
theorem Reads.readAll_banner (b : Banner) {chunks : List (List UInt8)}
    (h : s.Reads b.lines (chunks.flatten ++ rest)) (due : chunks.flatten ++ rest ≠ []) :
    (rest ≠ [] ∧ (s.readAll chunks).2 = [] ∧ (s.readAll chunks).1.Reads b.lines rest) ∨
      (rest = [] ∧ (s.readAll chunks).1.Reads [] [] ∧
        ∃ lost, lost ≤ b.before.length + 1 - maxLines ∧ (s.readAll chunks).2 =
          [.ofLines ((b.before.drop lost ++ [b.first, b.second]).map decodeLine)]) := by
  induction chunks generalizing s with
  | nil => exact Or.inl ⟨due, rfl, h⟩
  | cons chunk later ih =>
    rw [List.flatten_cons, List.append_assoc] at h due
    by_cases open_ : later.flatten ++ rest = []
    · rw [open_, List.append_nil] at h due
      obtain ⟨⟨lost, few, found⟩, anew⟩ := h.read_banner b due
      obtain ⟨nothing, rfl⟩ := List.append_eq_nil_iff.mp open_
      have unread : (s.read chunk).1.Reads [] (later.flatten ++ []) := by
        rw [nothing]
        exact anew
      obtain ⟨silent, still⟩ := unread.readAll_quiet (List.forall_mem_nil _) quiet_nil
      refine Or.inr ⟨rfl, still, lost, few, ?_⟩
      simp only [readAll, found, silent, Option.toList_some, List.append_nil]
    · obtain ⟨nothing, on⟩ := h.read_on fun kept eq =>
        Bool.eq_false_iff.mpr fun ends => open_ ((ends_iff_whole b eq).mp ends)
      have rest_case := ih on open_
      simp only [readAll, nothing, Option.toList_none, List.nil_append]
      exact rest_case

end StopScanner

/-- What a REPL prints on its diagnostics while it carries out one command: some lines, and after them
the two lines of a banner if its program stops. -/
structure StopTurn where
  remarks : List (List UInt8)
  banner : Option (List UInt8 × List UInt8)
  whole : ∀ line ∈ remarks, LineBuffer.newline ∉ line
  wholeBanner : ∀ b ∈ banner, LineBuffer.newline ∉ b.1 ∧ LineBuffer.newline ∉ b.2
  frames : ∀ b ∈ banner, OpensBanner b.1 ∧ ClosesBanner b.2

namespace StopTurn

def stops (t : StopTurn) : Bool := t.banner.isSome

def lines (t : StopTurn) : List (List UInt8) := t.remarks ++ t.banner.elim [] fun b => [b.1, b.2]

/-- The lines since the last stop before a turn; `earlier` were there before the first one. -/
def since (earlier : List (List UInt8)) (turns : Nat → StopTurn) : Nat → List (List UInt8)
  | 0 => earlier
  | k + 1 => if (turns k).stops then [] else since earlier turns k ++ (turns k).remarks

end StopTurn

/-- A REPL whose program is debugged: what it prints from now on in answer to each command, and on its
diagnostics in each turn, after the lines that were there earlier. It prints a banner in the turns that end
at the debug prompt. -/
structure Debuggee where
  answers : Nat → Printout
  earlier : List (List UInt8)
  turns : Nat → StopTurn
  whole : ∀ line ∈ earlier, LineBuffer.newline ∉ line
  quiet : ∀ k, Quiet (StopTurn.since earlier turns k ++ (turns k).remarks)
  prompts : ∀ k, (turns k).stops = (answers k).prompt.isDebug

namespace Debuggee

/-- The lines since the last stop, before a turn. -/
def since (p : Debuggee) (k : Nat) : List (List UInt8) := StopTurn.since p.earlier p.turns k

/-- The same with those of the turn, but for its banner. -/
def context (p : Debuggee) (k : Nat) : List (List UInt8) := p.since k ++ (p.turns k).remarks

/-- All that is printed on the diagnostics in the first turns. -/
def spoken (p : Debuggee) (count : Nat) : List UInt8 :=
  (List.range count).flatMap fun k => joinLines (p.turns k).lines

/-- How many of the first turns stop. -/
def stopCount (p : Debuggee) (count : Nat) : Nat :=
  (List.range count).countP fun k => (p.turns k).stops

/-- The stop of a turn, if there is one: it is told by its banner after the lines since the last stop, of
which the oldest may be lost where they are many. -/
def Tells (p : Debuggee) (k : Nat) (stop : Option StopNotice) : Prop :=
  match (p.turns k).banner with
  | none => stop = none
  | some b => ∃ lost, lost ≤ (p.context k).length + 1 - StopScanner.maxLines ∧
      stop = some (.ofLines (((p.context k).drop lost ++ [b.1, b.2]).map decodeLine))

variable {p : Debuggee} {k : Nat}

theorem since_succ (p : Debuggee) (k : Nat) :
    p.since (k + 1) = if (p.turns k).stops then [] else p.context k := rfl

theorem spoken_succ (p : Debuggee) (count : Nat) :
    p.spoken (count + 1) = p.spoken count ++ joinLines (p.turns count).lines := by
  simp [spoken, List.range_succ]

theorem stopCount_succ (p : Debuggee) (count : Nat) :
    p.stopCount (count + 1) = p.stopCount count + if (p.turns count).stops then 1 else 0 := by
  simp [stopCount, List.range_succ]

theorem spoken_grows (p : Debuggee) {m n : Nat} (h : m ≤ n) : p.spoken m <+: p.spoken n :=
  (range_grows h).flatMap _

theorem whole_since (p : Debuggee) (k : Nat) : ∀ line ∈ p.since k, newline ∉ line := by
  induction k with
  | zero => exact p.whole
  | succ k ih =>
    rw [since_succ]
    split
    next => exact List.forall_mem_nil _
    next =>
      intro line h
      rcases List.mem_append.mp h with before | own
      · exact ih line before
      · exact (p.turns k).whole line own

theorem whole_context (p : Debuggee) (k : Nat) : ∀ line ∈ p.context k, newline ∉ line := by
  intro line h
  rcases List.mem_append.mp h with before | own
  · exact p.whole_since k line before
  · exact (p.turns k).whole line own

theorem quiet_since (p : Debuggee) (k : Nat) : Quiet (p.since k) := by
  intro init a b later split
  have whole : p.since k ++ (p.turns k).remarks = init ++ a :: b :: (later ++ (p.turns k).remarks) := by
    rw [split]
    simp
  exact p.quiet k init a b _ whole

/-- The banner of a turn with all the lines before it that no stop has told. -/
def bannerOf (p : Debuggee) (k : Nat) {b : List UInt8 × List UInt8}
    (prints : (p.turns k).banner = some b) : Banner where
  before := p.context k
  first := b.1
  second := b.2
  whole := by
    have own := (p.turns k).wholeBanner b prints
    intro line h
    simp only [List.mem_append, List.mem_cons, List.not_mem_nil, or_false] at h
    rcases h with before | rfl | rfl
    · exact p.whole_context k line before
    · exact own.1
    · exact own.2
  opens := ((p.turns k).frames b prints).1
  closes := ((p.turns k).frames b prints).2
  quiet := p.quiet k

theorem stops_of_tells {stop : StopNotice} (h : p.Tells k (some stop)) : (p.turns k).stops = true := by
  unfold Tells at h
  split at h
  next => cases h
  next b prints => simp [StopTurn.stops, prints]

theorem tells_none (quiet : (p.turns k).stops = false) : p.Tells k none := by
  have silent : (p.turns k).banner = none := by simpa [StopTurn.stops] using quiet
  simp only [Tells, silent]

theorem isSome_of_tells {stop : Option StopNotice} (h : p.Tells k stop) :
    stop.isSome = (p.turns k).stops := by
  cases stop with
  | some stop => exact (stops_of_tells h).symm
  | none =>
    unfold Tells at h
    split at h
    next silent => simp [StopTurn.stops, silent]
    next =>
      obtain ⟨_, _, told⟩ := h
      cases told

/-- What is left to read of a turn when more of its diagnostics was read: either no notice came of it, or
it was the end of its banner and its notice came. -/
theorem readAll_turn (p : Debuggee) (k : Nat) {s : StopScanner} {chunks : List (List UInt8)}
    {rest : List UInt8} (h : s.Reads (p.since k ++ (p.turns k).lines) (chunks.flatten ++ rest))
    (due : (p.turns k).stops = true → chunks.flatten ++ rest ≠ []) :
    (((p.turns k).stops = true → rest ≠ []) ∧ (s.readAll chunks).2 = [] ∧
        (s.readAll chunks).1.Reads (p.since k ++ (p.turns k).lines) rest) ∨
      ∃ stop, p.Tells k (some stop) ∧ rest = [] ∧ (s.readAll chunks).2 = [stop] ∧
        (s.readAll chunks).1.Reads [] [] := by
  cases prints : (p.turns k).banner with
  | none =>
    have lines : p.since k ++ (p.turns k).lines = p.context k := by
      simp [StopTurn.lines, prints, context]
    rw [lines] at h ⊢
    obtain ⟨silent, read⟩ := h.readAll_quiet (p.whole_context k) (p.quiet k)
    exact Or.inl ⟨by simp [StopTurn.stops, prints], silent, read⟩
  | some b =>
    have lines : p.since k ++ (p.turns k).lines = (p.bannerOf k prints).lines := by
      simp [StopTurn.lines, prints, Banner.lines, bannerOf, context]
    rw [lines] at h ⊢
    rcases h.readAll_banner _ (due (by simp [StopTurn.stops, prints])) with
      ⟨more, silent, read⟩ | ⟨done, read, lost, few, found⟩
    · exact Or.inl ⟨fun _ => more, silent, read⟩
    · refine Or.inr ⟨_, ?_, done, found, read⟩
      simp only [Tells, prints]
      exact ⟨lost, few, rfl⟩

end Debuggee

end PromptRelay
