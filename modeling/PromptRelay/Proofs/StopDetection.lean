import PromptRelay.Proofs.StopScanning

namespace PromptRelay

open LineBuffer (newline decodeLine pieces joinLines joinLines_append Cut exists_cut)
open StopNotice (framesOf)

def OpensBanner (line : List UInt8) : Prop := (bannerStart? (decodeLine line).toList).isSome = true

def ClosesBanner (line : List UInt8) : Prop := (bannerCode? (decodeLine line).toList).isSome = true

/-- No two lines in succession are a banner. -/
def Quiet (lines : List (List UInt8)) : Prop :=
  ∀ init a b later, lines = init ++ a :: b :: later → OpensBanner a → ¬ClosesBanner b

/-- One stop in the diagnostics: its banner, and the other lines since the last one. -/
structure Banner where
  before : List (List UInt8)
  first : List UInt8
  second : List UInt8
  whole : ∀ line ∈ before ++ [first, second], LineBuffer.newline ∉ line
  opens : OpensBanner first
  closes : ClosesBanner second
  quiet : Quiet before

namespace Banner

def lines (b : Banner) : List (List UInt8) := b.before ++ [b.first, b.second]

def texts (b : Banner) : List String := b.lines.map decodeLine

end Banner

theorem not_closesBanner {line : List UInt8} (h : OpensBanner line) : ¬ClosesBanner line := by
  intro closes
  rw [ClosesBanner, bannerCode?_of_bannerStart? h] at closes
  cases closes

def bytesOf (banners : List Banner) : List UInt8 := joinLines (banners.flatMap Banner.lines)

theorem bytesOf_append (first later : List Banner) :
    bytesOf (first ++ later) = bytesOf first ++ bytesOf later := by
  rw [bytesOf, List.flatMap_append, joinLines_append]
  rfl

theorem bytesOf_cons (b : Banner) (later : List Banner) :
    bytesOf (b :: later) = bytesOf [b] ++ bytesOf later := bytesOf_append [b] later

theorem newline_mem_bytesOf (earlier : List Banner) (b : Banner) : newline ∈ bytesOf (earlier ++ [b]) := by
  simp [bytesOf, joinLines, Banner.lines]

theorem whole_lines (banners : List Banner) :
    ∀ line ∈ banners.flatMap Banner.lines, newline ∉ line := by
  intro line h
  obtain ⟨b, _, own⟩ := List.mem_flatMap.mp h
  exact b.whole line own

/-- Where two lines in succession are a banner, they are the next one, or come after it. -/
theorem pair_cases {b : Banner} {init later rest : List (List UInt8)} {x y : List UInt8}
    (h : init ++ x :: y :: later = b.lines ++ rest) (opens : OpensBanner x) (closes : ClosesBanner y) :
    (init ++ [x, y] = b.lines ∧ later = rest) ∨
      ∃ init', init = b.lines ++ init' ∧ init' ++ x :: y :: later = rest := by
  have split : init ++ x :: y :: later = b.before ++ b.first :: b.second :: rest := by
    simpa [Banner.lines] using h
  rcases List.append_eq_append_iff.mp split with ⟨more, hb, eq⟩ | ⟨more, hi, eq⟩
  · match more with
    | [] =>
      cases eq
      exact Or.inl ⟨by simp [Banner.lines, hb], rfl⟩
    | [z] =>
      cases eq
      exact absurd closes (not_closesBanner b.opens)
    | z :: w :: more =>
      cases eq
      exact absurd closes (b.quiet init x y more hb opens)
  · match more with
    | [] =>
      cases eq
      exact Or.inl ⟨by simp [Banner.lines, hi], rfl⟩
    | [z] =>
      cases eq
      exact absurd b.closes (not_closesBanner opens)
    | z :: w :: more =>
      cases eq
      exact Or.inr ⟨more, by simp [Banner.lines, hi], rfl⟩

/-- In a stream two lines in succession are a banner only where one of its banners ends. -/
theorem pair_ends_banner {banners : List Banner} {init later rest : List (List UInt8)}
    {x y : List UInt8} (quiet : Quiet rest)
    (h : init ++ x :: y :: later = banners.flatMap Banner.lines ++ rest) (opens : OpensBanner x)
    (closes : ClosesBanner y) :
    ∃ earlier b others, banners = earlier ++ b :: others ∧
      init ++ [x, y] = (earlier ++ [b]).flatMap Banner.lines := by
  induction banners generalizing init with
  | nil => exact absurd closes (quiet init x y later h.symm opens)
  | cons b banners ih =>
    rw [List.flatMap_cons, List.append_assoc] at h
    rcases pair_cases h opens closes with ⟨eq, _⟩ | ⟨init', rfl, tail⟩
    · exact ⟨[], b, banners, rfl, by simpa using eq⟩
    · obtain ⟨earlier, c, others, rfl, eq⟩ := ih tail
      exact ⟨b :: earlier, c, others, rfl, by simp [← eq]⟩

/-- What was read ends in the last banner of `done`, with no more than blanks after it. -/
def AtEndOf (done read : List UInt8) : Prop :=
  ∃ x, read = done ++ x ∧ newline ∉ x ∧ isBlankLine (decodeLine x) = true

theorem not_atEndOf_nil (earlier : List Banner) (b : Banner) :
    ¬AtEndOf (bytesOf (earlier ++ [b])) [] := by
  rintro ⟨x, ends, _⟩
  have some := newline_mem_bytesOf earlier b
  rw [(List.append_eq_nil_iff.mp ends.symm).1] at some
  exact List.not_mem_nil some

theorem cut_bytesOf {banners : List Banner} {x : List UInt8} (h : newline ∉ x) :
    Cut (bytesOf banners ++ x) (banners.flatMap Banner.lines) x :=
  ⟨rfl, whole_lines banners, h⟩

/-- The scanner finds a banner where one of the stream ends, and nowhere else. -/
theorem endsInBanner_iff {banners : List Banner} {rest read : List UInt8}
    (quiet : Quiet (pieces rest).dropLast) (h : read <+: bytesOf banners ++ rest) :
    endsInBanner (LineBuffer.empty.push read).view = true ↔
      ∃ earlier b later, banners = earlier ++ b :: later ∧ AtEndOf (bytesOf (earlier ++ [b])) read := by
  constructor
  · intro ends
    obtain ⟨lines, last, cut⟩ := exists_cut read
    have lead := cut.lines_prefix h
    rw [cut.push] at ends
    obtain ⟨init, first, second, third, eq, opens, closes, blank⟩ := endsInBanner_cases ends
    have parts : lines.map decodeLine ++ [decodeLine last] = (init ++ [first, second]) ++ [third] := by
      simpa [LineBuffer.view] using eq
    obtain ⟨texts, open_⟩ := List.append_inj' parts rfl
    obtain ⟨front, pair, rfl, _, hp⟩ := List.map_eq_append_iff.mp texts
    have two : pair.length = 2 := by simpa using congrArg List.length hp
    obtain ⟨x, y, rfl⟩ := List.length_eq_two.mp two
    obtain ⟨rfl, rfl⟩ : decodeLine x = first ∧ decodeLine y = second := by simpa using hp
    obtain ⟨later, tail⟩ := lead
    rw [bytesOf, LineBuffer.pieces_joinLines (whole_lines banners),
      List.dropLast_append_of_ne_nil (LineBuffer.pieces_ne_nil rest), List.append_assoc] at tail
    obtain ⟨earlier, b, others, rfl, own⟩ := pair_ends_banner quiet tail opens closes
    refine ⟨earlier, b, others, rfl, last, by rw [cut.eq, own, bytesOf], cut.isOpen, ?_⟩
    exact List.head_eq_of_cons_eq open_ ▸ blank
  · rintro ⟨earlier, b, later, rfl, x, rfl, whole, blank⟩
    have view : (LineBuffer.empty.push (bytesOf (earlier ++ [b]) ++ x)).view =
        ((earlier.flatMap Banner.lines ++ b.before).map decodeLine) ++
          [decodeLine b.first, decodeLine b.second, decodeLine x] := by
      rw [(cut_bytesOf whole).push]
      simp [LineBuffer.view, Banner.lines]
    rw [view, endsInBanner_concat, b.opens, b.closes, blank]
    rfl

/-- A banner is met by the chunks: some chunk ends right after it, or among blanks after it, and the
lines lost when the first such chunk is read do not change its frames. -/
def Met (chunks : List (List UInt8)) (earlier : List Banner) (b : Banner) : Prop :=
  ∃ seen chunk later, chunks = seen ++ chunk :: later ∧
    AtEndOf (bytesOf (earlier ++ [b])) (seen ++ [chunk]).flatten ∧
    (∀ part, part <+: seen → ¬AtEndOf (bytesOf (earlier ++ [b])) part.flatten) ∧
    framesOf (b.texts.drop (seen.flatten.count newline - (bytesOf earlier).count newline -
      StopScanner.maxLines)) = framesOf b.texts

/-- The same for chunks that come after bytes already read since the last stop. -/
def MetFrom (kept : List UInt8) (chunks : List (List UInt8)) (earlier : List Banner) (b : Banner) :
    Prop :=
  ∃ seen chunk later, chunks = seen ++ chunk :: later ∧
    AtEndOf (bytesOf (earlier ++ [b])) (kept ++ (seen ++ [chunk]).flatten) ∧
    (∀ part, part <+: seen → part ≠ [] →
      ¬AtEndOf (bytesOf (earlier ++ [b])) (kept ++ part.flatten)) ∧
    framesOf (b.texts.drop ((kept ++ seen.flatten).count newline -
      (bytesOf earlier).count newline - StopScanner.maxLines)) = framesOf b.texts

/-- The next chunk takes the scanner on when no banner ends in it. -/
theorem metFrom_cons {kept chunk : List UInt8} {chunks : List (List UInt8)} {earlier : List Banner}
    {b : Banner} (miss : ¬AtEndOf (bytesOf (earlier ++ [b])) (kept ++ chunk)) :
    MetFrom kept (chunk :: chunks) earlier b ↔ MetFrom (kept ++ chunk) chunks earlier b := by
  constructor
  · rintro ⟨seen, last, later, eq, met, first, frames⟩
    cases seen with
    | nil =>
      cases eq
      exact absurd (by simpa using met) miss
    | cons head seen =>
      cases eq
      refine ⟨seen, last, later, rfl, by simpa using met, fun part inside some => ?_, by simpa using frames⟩
      have longer := first (chunk :: part) (List.cons_prefix_cons.mpr ⟨rfl, inside⟩) (List.cons_ne_nil _ _)
      simpa using longer
  · rintro ⟨seen, last, later, rfl, met, first, frames⟩
    refine ⟨chunk :: seen, last, later, rfl, by simpa using met, fun part inside some => ?_,
      by simpa using frames⟩
    cases part with
    | nil => exact absurd rfl some
    | cons head part =>
      obtain ⟨rfl, inner⟩ := List.cons_prefix_cons.mp inside
      cases part with
      | nil => simpa using miss
      | cons second part =>
        have shorter := first (second :: part) inner (List.cons_ne_nil _ _)
        simpa using shorter

theorem atEndOf_append {front done read : List UInt8} :
    AtEndOf (front ++ done) (front ++ read) ↔ AtEndOf done read := by
  simp only [AtEndOf, List.append_assoc, List.append_cancel_left_eq]

/-- A banner that lies behind is of no account for a later one. -/
theorem metFrom_behind {b₀ b : Banner} {kept : List UInt8} {chunks : List (List UInt8)}
    {earlier : List Banner} :
    MetFrom (bytesOf [b₀] ++ kept) chunks (b₀ :: earlier) b ↔ MetFrom kept chunks earlier b := by
  have through := bytesOf_cons b₀ (earlier ++ [b])
  have count : ∀ bytes : List UInt8, (bytesOf [b₀] ++ bytes).count newline -
      (bytesOf (b₀ :: earlier)).count newline = bytes.count newline - (bytesOf earlier).count newline := by
    intro bytes
    rw [bytesOf_cons b₀ earlier, List.count_append, List.count_append, Nat.add_sub_add_left]
  simp only [MetFrom, List.cons_append, through, List.append_assoc, atEndOf_append, count]

theorem metFrom_now {b : Banner} {kept chunk : List UInt8} (chunks : List (List UInt8))
    (hit : AtEndOf (bytesOf [b]) (kept ++ chunk)) :
    MetFrom kept (chunk :: chunks) [] b ↔
      framesOf (b.texts.drop (kept.count newline - StopScanner.maxLines)) = framesOf b.texts := by
  constructor
  · rintro ⟨seen, last, later, eq, met, first, frames⟩
    cases seen with
    | nil => simpa [bytesOf, joinLines] using frames
    | cons head seen =>
      cases eq
      refine absurd ?_ (first [chunk] (by simp) (List.cons_ne_nil _ _))
      simpa using hit
  · intro frames
    refine ⟨[], chunk, chunks, rfl, by simpa using hit, fun part inside some => ?_,
      by simpa [bytesOf, joinLines] using frames⟩
    exact absurd (List.prefix_nil.mp inside) some

/-- A banner that a chunk left behind is not met any more. -/
theorem not_metFrom_behind {b c : Banner} {earlier : List Banner} {kept chunk x : List UInt8}
    {chunks : List (List UInt8)} (h : kept ++ chunk = bytesOf (b :: (earlier ++ [c])) ++ x) :
    ¬MetFrom kept (chunk :: chunks) [] b := by
  rintro ⟨seen, last, later, eq, ⟨y, met, whole, _⟩, _⟩
  have goesOn : ∃ more, kept ++ (seen ++ [last]).flatten = kept ++ chunk ++ more := by
    cases seen with
    | nil =>
      cases eq
      exact ⟨[], by simp⟩
    | cons head seen =>
      cases eq
      exact ⟨(seen ++ [last]).flatten, by simp⟩
  obtain ⟨more, eq⟩ := goesOn
  rw [eq, h, bytesOf_cons b, List.nil_append, List.append_assoc, List.append_assoc,
    List.append_cancel_left_eq] at met
  exact whole (met ▸ List.mem_append_left _ (newline_mem_bytesOf earlier c))

theorem drop_lines {front : List Banner} {x rest : List UInt8} {banners : List Banner}
    {chunks : List (List UInt8)}
    (h : bytesOf front ++ x ++ chunks.flatten = bytesOf (front ++ banners) ++ rest) :
    x ++ chunks.flatten = bytesOf banners ++ rest := by
  rw [bytesOf_append, List.append_assoc, List.append_assoc, List.append_cancel_left_eq] at h
  exact h

/-- One chunk: it ends in a banner of the stream, whose frames are found and which is left behind
with all before it, or no banner ends in it. -/
theorem framesFound_step {banners : List Banner} {rest : List UInt8}
    (quiet : Quiet (pieces rest).dropLast) {kept chunk : List UInt8} {chunks : List (List UInt8)}
    (h : kept ++ (chunk :: chunks).flatten = bytesOf banners ++ rest) :
    (∃ earlier b later x, banners = earlier ++ b :: later ∧
      kept ++ chunk = bytesOf (earlier ++ [b]) ++ x ∧ newline ∉ x ∧
      isBlankLine (decodeLine x) = true ∧ x ++ chunks.flatten = bytesOf later ++ rest ∧
      framesFound kept (chunk :: chunks) =
        framesOf ((((earlier ++ [b]).flatMap Banner.lines).map decodeLine).drop
          (kept.count newline - StopScanner.maxLines)) :: framesFound x chunks) ∨
    (∀ earlier b later, banners = earlier ++ b :: later →
      ¬AtEndOf (bytesOf (earlier ++ [b])) (kept ++ chunk)) ∧
      kept ++ chunk ++ chunks.flatten = bytesOf banners ++ rest ∧
      framesFound kept (chunk :: chunks) = framesFound (kept ++ chunk) chunks := by
  rw [List.flatten_cons, ← List.append_assoc] at h
  have hits := endsInBanner_iff quiet ⟨_, h⟩
  simp only [framesFound]
  by_cases ends : endsInBanner (LineBuffer.empty.push (kept ++ chunk)).view = true
  · obtain ⟨earlier, b, later, rfl, x, eq, whole, blank⟩ := hits.mp ends
    refine Or.inl ⟨earlier, b, later, x, rfl, eq, whole, blank, ?_, ?_⟩
    · have split : earlier ++ b :: later = (earlier ++ [b]) ++ later := by simp
      rw [eq, split] at h
      exact drop_lines h
    · rw [if_pos ends, eq, (cut_bytesOf whole).push]
  · rw [if_neg ends]
    refine Or.inr ⟨fun earlier b later eq met => ?_, h, rfl⟩
    exact ends (hits.mpr ⟨earlier, b, later, eq, met⟩)

theorem framesFound_length_le {banners : List Banner} {rest : List UInt8}
    (quiet : Quiet (pieces rest).dropLast) {kept : List UInt8} {chunks : List (List UInt8)}
    (h : kept ++ chunks.flatten = bytesOf banners ++ rest) :
    (framesFound kept chunks).length ≤ banners.length := by
  induction chunks generalizing kept banners with
  | nil => exact Nat.zero_le _
  | cons chunk chunks ih =>
    rcases framesFound_step quiet h with
      ⟨earlier, b, later, x, rfl, _, _, _, remaining, found⟩ | ⟨_, remaining, found⟩
    · have fewer := ih remaining
      rw [found]
      simp only [List.length_cons, List.length_append]
      omega
    · rw [found]
      exact ih remaining

/-- After the chunk that meets a banner, a later one is met by the chunks that follow. -/
theorem metFrom_later {b₀ b : Banner} {kept chunk x : List UInt8} {chunks : List (List UInt8)}
    {earlier : List Banner} (h : kept ++ chunk = bytesOf [b₀] ++ x) (whole : newline ∉ x) :
    MetFrom kept (chunk :: chunks) (b₀ :: earlier) b ↔ MetFrom x chunks earlier b := by
  have miss : ¬AtEndOf (bytesOf (b₀ :: earlier ++ [b])) (kept ++ chunk) := by
    rw [h, List.cons_append, bytesOf_cons b₀, atEndOf_append]
    rintro ⟨y, rfl, _⟩
    exact whole (List.mem_append_left y (newline_mem_bytesOf earlier b))
  rw [metFrom_cons miss, h]
  exact metFrom_behind

theorem forall_split_cons {α : Type} {P : List α → α → Prop} {first : α} {rest : List α} :
    (∀ earlier b later, first :: rest = earlier ++ b :: later → P earlier b) ↔
      P [] first ∧ ∀ earlier b later, rest = earlier ++ b :: later → P (first :: earlier) b := by
  constructor
  · intro all
    exact ⟨all [] first rest rfl,
      fun earlier b later split => all (first :: earlier) b later (congrArg (first :: ·) split)⟩
  · rintro ⟨now, after⟩ earlier b later split
    cases earlier with
    | nil =>
      cases split
      exact now
    | cons c earlier =>
      cases split
      exact after earlier b later rfl

/-- The stops found are those of the banners exactly when each banner is met. -/
theorem framesFound_eq_iff {banners : List Banner} {rest : List UInt8}
    (quiet : Quiet (pieces rest).dropLast) {kept : List UInt8} {chunks : List (List UInt8)}
    (h : kept ++ chunks.flatten = bytesOf banners ++ rest) :
    framesFound kept chunks = banners.map (fun b => framesOf b.texts) ↔
      ∀ earlier b later, banners = earlier ++ b :: later → MetFrom kept chunks earlier b := by
  induction chunks generalizing kept banners with
  | nil =>
    constructor
    · rintro found earlier b later rfl
      simp [framesFound] at found
    · intro all
      cases banners with
      | nil => rfl
      | cons b later =>
        obtain ⟨seen, last, more, eq, _⟩ := all [] b later rfl
        simp at eq
  | cons chunk chunks ih =>
    rcases framesFound_step quiet h with
      ⟨earlier, b, later, x, rfl, eq, whole, blank, remaining, found⟩ | ⟨miss, remaining, found⟩
    · rw [found]
      cases earlier with
      | nil =>
        have now := metFrom_now chunks ⟨x, eq, whole, blank⟩
        have own : ([] ++ [b]).flatMap Banner.lines = b.lines := by simp
        rw [own, List.nil_append, List.map_cons, List.cons_eq_cons, ih remaining, forall_split_cons, now]
        simp only [metFrom_later eq whole]
        rfl
      -- The scanner gives one notice for several banners, so it cannot give one for each.
      | cons c earlier =>
        constructor
        · intro frames
          have few := framesFound_length_le quiet remaining
          have lengths := congrArg List.length frames
          simp only [List.length_cons, List.length_map, List.length_append] at lengths
          omega
        · intro all
          exact absurd (all [] c _ rfl) (not_metFrom_behind eq)
    · rw [found, ih remaining]
      constructor
      · intro all earlier b later split
        exact (metFrom_cons (miss earlier b later split)).mpr (all earlier b later split)
      · intro all earlier b later split
        exact (metFrom_cons (miss earlier b later split)).mp (all earlier b later split)

theorem metFrom_nil {chunks : List (List UInt8)} {earlier : List Banner} {b : Banner} :
    MetFrom [] chunks earlier b ↔ Met chunks earlier b := by
  constructor
  · rintro ⟨seen, chunk, later, eq, met, first, frames⟩
    refine ⟨seen, chunk, later, eq, met, fun part inside => ?_, frames⟩
    cases part with
    | nil => exact not_atEndOf_nil earlier b
    | cons head part => exact first (head :: part) inside (List.cons_ne_nil head part)
  · rintro ⟨seen, chunk, later, eq, met, first, frames⟩
    exact ⟨seen, chunk, later, eq, met, fun part inside _ => first part inside, frames⟩

/-- A stream of banners, with other lines before, between and after them, gives one notice for each
banner, in order and with its own frames, exactly when the chunks meet each banner. -/
theorem stops_found_iff_banners_met (banners : List Banner) (rest : List UInt8)
    (quiet : Quiet (pieces rest).dropLast) (chunks : List (List UInt8))
    (stream : chunks.flatten = bytesOf banners ++ rest) :
    (StopScanner.start.readAll chunks).2.map (·.frames) = banners.map (fun b => framesOf b.texts) ↔
      ∀ earlier b later, banners = earlier ++ b :: later → Met chunks earlier b := by
  have fresh : StopScanner.start.buffer =
      (LineBuffer.empty.push []).keepLast StopScanner.maxLines := rfl
  have found := readAll_frames rfl (List.not_mem_nil (a := newline)) (by decide) fresh chunks
  rw [found, List.append_nil, framesFound_eq_iff quiet stream]
  simp only [metFrom_nil]

theorem quiet_of_length_le {lines : List (List UInt8)} (h : lines.length ≤ 1) : Quiet lines := by
  rintro init a b later rfl
  simp only [List.length_append, List.length_cons] at h
  omega

def fooBanner : Banner where
  before := []
  first := utf8Bytes "stopped in foo at line 3"
  second := utf8Bytes "3: x = 1"
  whole := by decide +kernel
  opens := by
    unfold OpensBanner
    decide +kernel
  closes := by
    unfold ClosesBanner
    decide +kernel
  quiet := quiet_of_length_le (Nat.zero_le 1)

theorem stop_found_at_end_of_banner :
    (StopScanner.start.readAll [utf8Bytes "stopped in foo at line 3\n3: x = 1\n"]).2.map (·.frames) =
      [framesOf fooBanner.texts] := by
  have stream : [utf8Bytes "stopped in foo at line 3\n3: x = 1\n"].flatten = bytesOf [fooBanner] ++ [] := by
    decide +kernel
  refine (stops_found_iff_banners_met [fooBanner] [] (quiet_of_length_le (by decide)) _ stream).mpr ?_
  intro earlier b later eq
  match earlier with
  | c :: earlier =>
    have lengths := congrArg List.length eq
    simp at lengths
  | [] =>
    cases eq
    refine ⟨[], _, [], rfl, ⟨[], stream, List.not_mem_nil, by decide⟩, ?_, rfl⟩
    intro part inside
    rw [List.prefix_nil.mp inside]
    exact not_atEndOf_nil [] fooBanner

/-- A banner is lost when the blank line that ends it comes in the same chunk. -/
theorem banner_lost_with_blank_line :
    ¬∀ (banners : List Banner) (rest : List UInt8) (chunks : List (List UInt8)),
      Quiet (pieces rest).dropLast → chunks.flatten = bytesOf banners ++ rest →
      (StopScanner.start.readAll chunks).2.map (·.frames) =
        banners.map (fun b => framesOf b.texts) := by
  intro all
  have found := all [fooBanner] [newline] [utf8Bytes "stopped in foo at line 3\n3: x = 1\n\n"]
    (quiet_of_length_le (by decide)) (by decide +kernel)
  have none : (StopScanner.start.readAll [utf8Bytes "stopped in foo at line 3\n3: x = 1\n\n"]).2 = [] := by
    decide +kernel
  rw [none] at found
  cases found

end PromptRelay
