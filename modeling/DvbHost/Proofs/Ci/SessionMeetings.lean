import DvbHost.Proofs.Ci.SessionPassages

/-!
# The states that events meet

A handler whose lookups change nothing is, at every moment of a poll, in the state that the events
told so far have led to. So it meets each event in the state after those before it, and what is
proved of lists of events holds of polls.
-/

namespace DvbHost.Ci

set_option autoImplicit false

variable {τ η : Type}

namespace Handler

/-- The state after events in order. -/
def after (h : Handler η) (s : η) (told : List SessionEvent) : η :=
  told.foldl (fun s e => h.event e s) s

/-- Events in order, each with the state that it meets. -/
def meetings (h : Handler η) : η → List SessionEvent → List (η × SessionEvent)
  | _, [] => []
  | s, e :: told => (s, e) :: meetings h (h.event e s) told

/-- A handler that also writes down in which state it meets which event. -/
def observed (h : Handler η) : Handler (η × List (η × SessionEvent)) where
  lookup slot requested s :=
    ((h.lookup slot requested s.1).1, (h.lookup slot requested s.1).2, s.2)
  event e s := (h.event e s.1, s.2 ++ [(s.1, e)])

/-- A handler that is nothing but what it was told. -/
def history (h : Handler η) (start : η) : Handler (List SessionEvent) where
  lookup slot requested told := ((h.lookup slot requested (h.after start told)).1, told)
  event e told := told ++ [e]

variable (h : Handler η) (s : η) (told told' : List SessionEvent)

theorem after_append : h.after s (told ++ told') = h.after (h.after s told) told' :=
  List.foldl_append

theorem meetings_append :
    h.meetings s (told ++ told') = h.meetings s told ++ h.meetings (h.after s told) told' := by
  induction told generalizing s with
  | nil => rfl
  | cons e told ih => exact congrArg ((s, e) :: ·) (ih (h.event e s))

theorem mem_meetings {p : η × SessionEvent} (hp : p ∈ h.meetings s told) : p.2 ∈ told := by
  induction told generalizing s with
  | nil => cases hp
  | cons e told ih =>
    rcases List.mem_cons.mp hp with rfl | hp
    · exact List.mem_cons_self ..
    · exact List.mem_cons_of_mem _ (ih _ hp)

/-! ## A handler is what it was told -/

variable {h} (hlookup : ∀ slot requested s, (h.lookup slot requested s).2 = s)

include hlookup

theorem history_maps : Maps (h.after s) (h.history s) h where
  lookup slot requested _ := Prod.ext rfl (hlookup slot requested _)
  event e told := (h.after_append s told [e]).symm

theorem history_maps_recorded :
    Maps (fun told => (h.after s told, told)) (h.history s) h.recorded where
  lookup slot requested _ := Prod.ext rfl (Prod.ext (hlookup slot requested _) rfl)
  event e told := Prod.ext (h.after_append s told [e]).symm rfl

theorem history_maps_observed :
    Maps (fun told => (h.after s told, h.meetings s told)) (h.history s) h.observed where
  lookup slot requested _ := Prod.ext rfl (Prod.ext (hlookup slot requested _) rfl)
  event e told := Prod.ext (h.after_append s told [e]).symm (h.meetings_append s told [e]).symm

end Handler

/-- What becomes of a handler in a poll, and what becomes of the table of sessions, is made of the
same events. -/
theorem Dialogue.processAll_told {h : Handler η}
    (hlookup : ∀ slot requested s, (h.lookup slot requested s).2 = s) (carrier : Carrier τ)
    (events : List TransportEvent) (l : SessionLayer τ) (s : η) :
    ∃ told,
      (processAll carrier h events ⟨l, s⟩ none).1.handler = h.after s told ∧
      (processAll carrier h.observed events ⟨l, (s, [])⟩ none).1.handler.2 = h.meetings s told ∧
      SessionTable.Changes l.table told
        (processAll carrier h events ⟨l, s⟩ none).1.layer.table := by
  let o := (processAll carrier (h.history s) events ⟨l, []⟩ none).1
  have hplain : o.map (h.after s) = (processAll carrier h events ⟨l, s⟩ none).1 :=
    map_processAll (h.history_maps s hlookup) carrier ⟨l, []⟩ events none none
  have hrecorded : o.map (fun told => (h.after s told, told)) =
      (processAll carrier h.recorded events ⟨l, (s, [])⟩ none).1 :=
    map_processAll (h.history_maps_recorded s hlookup) carrier ⟨l, []⟩ events none none
  have hobserved : o.map (fun told => (h.after s told, h.meetings s told)) =
      (processAll carrier h.observed events ⟨l, (s, [])⟩ none).1 :=
    map_processAll (h.history_maps_observed s hlookup) carrier ⟨l, []⟩ events none none
  obtain ⟨told, htold, hchanges⟩ := processAll_advances carrier h events none (d := ⟨l, (s, [])⟩)
  rw [← hrecorded] at htold hchanges
  obtain rfl : o.handler = told := htold
  refine ⟨o.handler, ?_, ?_, ?_⟩
  · rw [← hplain]
    rfl
  · rw [← hobserved]
    rfl
  · rw [← hplain]
    exact hchanges

end DvbHost.Ci
