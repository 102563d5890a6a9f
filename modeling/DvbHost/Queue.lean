/-!
# Queues

First in, first out, in two lists: what comes next, and what came last in reverse. `toList` is the
view: every law of the operations is said of it.
-/

namespace DvbHost

set_option autoImplicit false

structure Queue (α : Type) where
  front : List α
  back : List α

namespace Queue

variable {α : Type}

def empty : Queue α := ⟨[], []⟩

instance : Inhabited (Queue α) := ⟨empty⟩

def ofList (l : List α) : Queue α := ⟨l, []⟩

/-- The elements, oldest first. -/
def toList (q : Queue α) : List α := q.front ++ q.back.reverse

def push (q : Queue α) (a : α) : Queue α := ⟨q.front, a :: q.back⟩

def append (q : Queue α) (l : List α) : Queue α := l.foldl push q

/-- The oldest element and the others. -/
def pop? (q : Queue α) : Option (α × Queue α) :=
  match q.front with
  | a :: front => some (a, ⟨front, q.back⟩)
  | [] =>
    match q.back.reverse with
    | a :: front => some (a, ⟨front, []⟩)
    | [] => none

@[simp] theorem toList_empty : (empty : Queue α).toList = [] := rfl

@[simp] theorem toList_ofList (l : List α) : (ofList l).toList = l := by simp [ofList, toList]

@[simp] theorem toList_push (q : Queue α) (a : α) : (q.push a).toList = q.toList ++ [a] := by
  simp [push, toList]

@[simp] theorem toList_append (q : Queue α) (l : List α) :
    (q.append l).toList = q.toList ++ l := by
  induction l generalizing q with
  | nil => simp [append]
  | cons a l ih =>
    have := ih (q.push a)
    simp only [append, List.foldl_cons] at this ⊢
    simpa using this

theorem map_toList_pop? (q : Queue α) :
    q.pop?.map (fun p => p.1 :: p.2.toList) = if q.toList = [] then none else some q.toList := by
  obtain ⟨front, back⟩ := q
  cases front with
  | cons a front => simp [pop?, toList]
  | nil => cases h : back.reverse <;> simp [pop?, toList, h]

end Queue

end DvbHost
