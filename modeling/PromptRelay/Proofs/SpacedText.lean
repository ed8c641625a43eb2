import Mathlib.Data.List.TakeWhile
import PromptRelay.LineForm

namespace PromptRelay

/-- A piece of text without blanks in it. -/
structure IsToken (t : List Char) : Prop where
  ne_nil : t ≠ []
  ink : ∀ c ∈ t, isBlank c = false

instance (t : List Char) : Decidable (IsToken t) :=
  decidable_of_iff (t ≠ [] ∧ t.all (!isBlank ·) = true)
    ⟨fun ⟨ne_nil, ink⟩ => ⟨ne_nil, by simpa using ink⟩, fun h => ⟨h.ne_nil, by simpa using h.ink⟩⟩

/-- A text that shows tokens, with any blanks around them and at least one between two. -/
inductive Spaced : List (List Char) → List Char → Prop where
  | blanks {s : List Char} : allBlank s = true → Spaced [] s
  | token {lead t rest : List Char} {ts : List (List Char)} : allBlank lead = true → IsToken t →
      (∀ c ∈ rest.head?, isBlank c = true) → Spaced ts rest → Spaced (t :: ts) (lead ++ t ++ rest)

theorem allBlank_cons {c : Char} {s : List Char} :
    allBlank (c :: s) = true ↔ isBlank c = true ∧ allBlank s = true := by
  simp [allBlank]

theorem takeWhile_append_stop {α : Type} {p : α → Bool} {s rest : List α} (inside : ∀ c ∈ s, p c = true)
    (stop : ∀ c ∈ rest.head?, p c = false) :
    (s ++ rest).takeWhile p = s ∧ (s ++ rest).dropWhile p = rest := by
  have noMore : rest.takeWhile p = [] ∧ rest.dropWhile p = rest := by
    cases rest with
    | nil => exact ⟨rfl, rfl⟩
    | cons c rest => simp [stop c rfl]
  rw [List.takeWhile_append_of_pos inside, List.dropWhile_append_of_pos inside, noMore.1, noMore.2,
    List.append_nil]
  exact ⟨rfl, rfl⟩

theorem head_dropWhile {α : Type} {p : α → Bool} {s : List α} :
    ∀ c ∈ (s.dropWhile p).head?, p c = false := by
  intro c hc
  have stopped := List.head?_dropWhile_not p s
  rw [Option.mem_def.mp hc] at stopped
  simpa using stopped

theorem trimLeft_append {blanks : List Char} (h : ∀ c ∈ blanks, isBlank c = true) (s : List Char) :
    trimLeft (blanks ++ s) = trimLeft s := List.dropWhile_append_of_pos h

theorem trimLeft_append_ink {blanks : List Char} (blank : allBlank blanks = true) {s : List Char}
    (ink : ∀ c ∈ s.head?, isBlank c = false) : trimLeft (blanks ++ s) = s :=
  (takeWhile_append_stop (List.all_eq_true.mp blank) ink).2

theorem eq_append_trimLeft (s : List Char) : ∃ lead, allBlank lead = true ∧ s = lead ++ trimLeft s :=
  ⟨s.takeWhile isBlank, List.all_eq_true.mpr fun _ hc => List.mem_takeWhile_imp hc,
    List.takeWhile_append_dropWhile.symm⟩

theorem IsToken.head_ink {t : List Char} (token : IsToken t) (rest : List Char) :
    ∀ c ∈ (t ++ rest).head?, isBlank c = false := by
  obtain ⟨ne_nil, ink⟩ := token
  cases t with
  | nil => exact absurd rfl ne_nil
  | cons d t =>
    intro c hc
    cases hc
    exact ink d List.mem_cons_self

/-- The first word of a text is as long as it can be. -/
theorem word?_eq_some_iff {s word rest : List Char} :
    word? s = some (word, rest) ↔
      s = word ++ rest ∧ IsToken word ∧ ∀ c ∈ rest.head?, isBlank c = true := by
  constructor
  · intro h
    simp only [word?] at h
    split at h
    next => cases h
    next some_ =>
      obtain ⟨rfl, rfl⟩ := Prod.mk.inj (Option.some.inj h)
      refine ⟨List.takeWhile_append_dropWhile.symm, ⟨by simpa using some_, fun c hc => ?_⟩, ?_⟩
      · simpa using List.mem_takeWhile_imp hc
      · intro c hc
        simpa using head_dropWhile c hc
  · rintro ⟨rfl, token, stop⟩
    have inside : ∀ c ∈ word, (!isBlank c) = true := fun c hc => by simp [token.ink c hc]
    have outside : ∀ c ∈ rest.head?, (!isBlank c) = false := fun c hc => by simp [stop c hc]
    obtain ⟨taken, left⟩ := takeWhile_append_stop inside outside
    simp [word?, taken, left, token.ne_nil]

theorem tokens_append_of_blank {lead : List Char} (blank : allBlank lead = true) (s : List Char) :
    tokens (lead ++ s) = tokens s := by
  induction lead with
  | nil => rfl
  | cons c lead ih =>
    obtain ⟨first, later⟩ := allBlank_cons.mp blank
    rw [List.cons_append, tokens_blank first, ih later]

theorem tokens_of_blank {s : List Char} (blank : allBlank s = true) : tokens s = [] := by
  have none := tokens_append_of_blank blank []
  rwa [List.append_nil] at none

theorem startsToken_eq_false {rest : List Char} (stop : ∀ c ∈ rest.head?, isBlank c = true) :
    startsToken rest = false := by
  cases rest with
  | nil => rfl
  | cons c rest => simp [startsToken, stop c rfl]

theorem addToToken_false (c : Char) (ts : List (List Char)) : addToToken c false ts = [c] :: ts := by
  cases ts <;> rfl

theorem tokens_ink {c : Char} (ink : isBlank c = false) (rest : List Char) :
    tokens (c :: rest) = addToToken c (startsToken rest) (tokens rest) := by
  simp [tokens, ink]

/-- A token ends where the blank after it begins. -/
theorem tokens_token {t rest : List Char} (token : IsToken t)
    (stop : ∀ c ∈ rest.head?, isBlank c = true) : tokens (t ++ rest) = t :: tokens rest := by
  obtain ⟨ne_nil, ink⟩ := token
  induction t with
  | nil => exact absurd rfl ne_nil
  | cons c t ih =>
    have own := ink c List.mem_cons_self
    cases t with
    | nil =>
      rw [List.singleton_append, tokens_ink own, startsToken_eq_false stop, addToToken_false]
    | cons d t =>
      have next := ink d (by simp)
      have later := ih (List.cons_ne_nil d t) fun x hx => ink x (List.mem_cons_of_mem c hx)
      have goesOn : startsToken (d :: t ++ rest) = true := by simp [startsToken, next]
      rw [List.cons_append, tokens_ink own, goesOn, later]
      rfl

theorem tokens_of_spaced {ts : List (List Char)} {s : List Char} (h : Spaced ts s) : tokens s = ts := by
  induction h with
  | blanks blank => exact tokens_of_blank blank
  | token lead token stop _ ih =>
    rw [List.append_assoc, tokens_append_of_blank lead, tokens_token token stop, ih]

theorem Spaced.cons_token {ts : List (List Char)} {t rest : List Char} (token : IsToken t)
    (stop : ∀ c ∈ rest.head?, isBlank c = true) (later : Spaced ts rest) :
    Spaced (t :: ts) (t ++ rest) := by
  have shown := Spaced.token (show allBlank [] = true from rfl) token stop later
  exact shown

theorem Spaced.cons_blank {ts : List (List Char)} {c : Char} {s : List Char}
    (blank : isBlank c = true) (h : Spaced ts s) : Spaced ts (c :: s) := by
  cases h with
  | blanks rest => exact .blanks (allBlank_cons.mpr ⟨blank, rest⟩)
  | token lead token stop later => exact .token (allBlank_cons.mpr ⟨blank, lead⟩) token stop later

/-- A character in front of a token makes it longer. -/
theorem Spaced.cons_ink {ts : List (List Char)} {c : Char} {s : List Char} (ink : isBlank c = false)
    (goesOn : startsToken s = true) (h : Spaced ts s) : Spaced (addToToken c true ts) (c :: s) := by
  cases h with
  | blanks blank =>
    have none : startsToken s = false := startsToken_eq_false fun d hd =>
      List.all_eq_true.mp blank d (List.mem_of_mem_head? hd)
    rw [none] at goesOn
    cases goesOn
  | @token lead t rest ts blank token stop later =>
    cases lead with
    | nil =>
      have longer : IsToken (c :: t) :=
        ⟨List.cons_ne_nil c t, by simpa using ⟨ink, token.ink⟩⟩
      exact .cons_token longer stop later
    | cons d lead =>
      have first := (allBlank_cons.mp blank).1
      simp [startsToken, first] at goesOn

theorem spaced_tokens (s : List Char) : Spaced (tokens s) s := by
  induction s with
  | nil => exact .blanks rfl
  | cons c rest ih =>
    cases first : isBlank c with
    | true =>
      rw [tokens_blank first]
      exact ih.cons_blank first
    | false =>
      rw [tokens_ink first]
      -- Before a blank or at the end the character is a token of its own, else it begins the next.
      cases next : startsToken rest with
      | true => exact ih.cons_ink first next
      | false =>
        have stop : ∀ d ∈ rest.head?, isBlank d = true := by
          cases rest with
          | nil => simp
          | cons d rest => simpa [startsToken] using next
        have single : IsToken [c] := ⟨List.cons_ne_nil c [], by simpa using first⟩
        rw [addToToken_false]
        exact .cons_token single stop ih

theorem tokens_eq_iff {ts : List (List Char)} {s : List Char} : tokens s = ts ↔ Spaced ts s :=
  ⟨fun h => h ▸ spaced_tokens s, tokens_of_spaced⟩

theorem tokenTexts_eq_iff {row : List String} {line : String} :
    tokenTexts line = row ↔ Spaced (row.map String.toList) line.toList := by
  rw [← tokens_eq_iff, tokenTexts]
  constructor
  · rintro rfl
    simp [Function.comp_def]
  · intro h
    simp [h, Function.comp_def]

end PromptRelay
