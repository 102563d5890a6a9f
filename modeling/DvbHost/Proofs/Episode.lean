import Mathlib.Data.List.Induction

/-!
# Episodes

Something is opened and closed over and over, and each time it is reported. The reports about one
such thing are marked by the part they play, and `Split` says what an orderly history of them is.
`scan` decides it from left to right: it is the form in which single steps are reasoned about.
-/

namespace DvbHost

set_option autoImplicit false

/-- The part that a report plays in the life of what it names. -/
inductive Mark where
  | opening
  | content
  | closing
  /-- A report about a life that did not come about. -/
  | aside
  deriving DecidableEq

namespace Episode

/-- An episode that goes on, with `n` reports since its opening. -/
def begun (n : Nat) : List Mark := .opening :: List.replicate n .content

/-- An episode from its opening to its closing. -/
def whole (n : Nat) : List Mark := begun n ++ [.closing]

/-- Whole episodes and asides, and behind them, if `unfinished`, one episode that goes on. -/
def Split (marks : List Mark) (unfinished : Bool) : Prop :=
  ∃ (parts : List (List Mark)) (tail : List Mark),
    marks = parts.flatten ++ tail ∧
    (∀ p ∈ parts, p = [.aside] ∨ ∃ n, p = whole n) ∧
    if unfinished then ∃ n, tail = begun n else tail = []

/-- Whether an episode goes on after a mark, given whether one did before it. -/
def next : Bool → Mark → Option Bool
  | false, .opening => some true
  | true, .content => some true
  | true, .closing => some false
  | false, .aside => some false
  | _, _ => none

/-- Whether an episode goes on at the end, if the marks are in order. -/
def scan (marks : List Mark) : Option Bool := marks.foldlM next false

theorem scan_append (ms ns : List Mark) :
    scan (ms ++ ns) = (scan ms).bind fun b => ns.foldlM next b := by
  simp only [scan, List.foldlM_append]
  rfl

theorem scan_concat (ms : List Mark) (m : Mark) :
    scan (ms ++ [m]) = (scan ms).bind fun b => next b m := by
  rw [scan_append]
  simp only [List.foldlM_cons, List.foldlM_nil, bind_pure]

/-- Contents leave an episode going on. -/
theorem foldlM_contents (n : Nat) :
    (List.replicate n Mark.content).foldlM next true = some true := by
  induction n with
  | zero => rfl
  | succ n ih =>
    rw [List.replicate_succ, List.foldlM_cons]
    exact ih

theorem foldlM_begun (n : Nat) : (begun n).foldlM next false = some true := by
  rw [begun, List.foldlM_cons]
  exact foldlM_contents n

theorem foldlM_whole (n : Nat) : (whole n).foldlM next false = some false := by
  rw [whole, List.foldlM_append, foldlM_begun]
  rfl

/-- An episode that does not go on at the end was closed. -/
theorem closing_mem_of_foldlM {marks : List Mark} (h : marks.foldlM next true = some false) :
    Mark.closing ∈ marks := by
  induction marks with
  | nil => cases h
  | cons mark marks ih =>
    cases mark with
    | content => exact List.mem_cons_of_mem _ (ih h)
    | closing => exact List.mem_cons_self ..
    | opening | aside => cases h

/-- Whole episodes and asides end where they began. -/
theorem scan_flatten (parts : List (List Mark))
    (h : ∀ p ∈ parts, p = [.aside] ∨ ∃ n, p = whole n) : scan parts.flatten = some false := by
  induction parts with
  | nil => rfl
  | cons p parts ih =>
    have hp : p.foldlM next false = some false := by
      rcases h p (List.mem_cons_self ..) with rfl | ⟨n, rfl⟩
      · rfl
      · exact foldlM_whole n
    have hparts := ih fun q hq => h q (List.mem_cons_of_mem _ hq)
    rw [List.flatten_cons, scan_append, scan, hp]
    exact hparts

theorem scan_of_split {ms : List Mark} {b : Bool} (h : Split ms b) : scan ms = some b := by
  obtain ⟨parts, tail, rfl, hparts, htail⟩ := h
  rw [scan_append, scan_flatten parts hparts]
  cases b with
  | false =>
    obtain rfl : tail = [] := htail
    rfl
  | true =>
    obtain ⟨n, rfl⟩ : ∃ n, tail = begun n := htail
    exact foldlM_begun n

/-- One more mark in order: the last part grows, or a new one begins. -/
theorem split_concat {ms : List Mark} {m : Mark} {b b' : Bool} (h : Split ms b)
    (hm : next b m = some b') : Split (ms ++ [m]) b' := by
  obtain ⟨parts, tail, rfl, hparts, htail⟩ := h
  have closed : ∀ last, (last = [Mark.aside] ∨ ∃ n, last = whole n) →
      ∀ p ∈ parts ++ [last], p = [Mark.aside] ∨ ∃ n, p = whole n := by
    intro last hlast p hp
    rcases List.mem_append.mp hp with hp | hp
    · exact hparts p hp
    · rwa [List.mem_singleton.mp hp]
  cases b with
  | false =>
    obtain rfl : tail = [] := htail
    cases m with
    | opening =>
      obtain rfl := Option.some.inj hm
      exact ⟨parts, [.opening], by simp, hparts, 0, rfl⟩
    | aside =>
      obtain rfl := Option.some.inj hm
      exact ⟨parts ++ [[.aside]], [], by simp, closed _ (.inl rfl), rfl⟩
    | content => cases hm
    | closing => cases hm
  | true =>
    obtain ⟨n, rfl⟩ : ∃ n, tail = begun n := htail
    cases m with
    | content =>
      obtain rfl := Option.some.inj hm
      refine ⟨parts, begun (n + 1), ?_, hparts, n + 1, rfl⟩
      simp only [begun, List.replicate_succ', List.append_assoc, List.cons_append]
    | closing =>
      obtain rfl := Option.some.inj hm
      exact ⟨parts ++ [whole n], [], by simp [whole], closed _ (.inr ⟨n, rfl⟩), rfl⟩
    | opening => cases hm
    | aside => cases hm

theorem split_of_scan {ms : List Mark} {b : Bool} (h : scan ms = some b) : Split ms b := by
  induction ms using List.reverseRecOn generalizing b with
  | nil =>
    obtain rfl := Option.some.inj h
    exact ⟨[], [], rfl, by simp, rfl⟩
  | append_singleton ms m ih =>
    rw [scan_concat] at h
    obtain ⟨c, hc, hm⟩ := Option.bind_eq_some_iff.mp h
    exact split_concat (ih hc) hm

/-- A history is orderly exactly if the scan of it comes to its end. -/
theorem split_iff_scan {ms : List Mark} {b : Bool} : Split ms b ↔ scan ms = some b :=
  ⟨scan_of_split, split_of_scan⟩

end Episode

end DvbHost
