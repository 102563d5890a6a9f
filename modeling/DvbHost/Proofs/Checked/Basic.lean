import DvbHost.Proofs.Cursor

/-!
# Computations that a fault can stop

The library reads octets by pattern and counts without bounds, so nothing in it can go wrong but
what it answers as an error. A receiver that takes octets by their index and adds in machine words
has one more way to end: an index past the end, a slice that is not there, a number that its word
cannot hold. `Checked` is a computation with these faults; what it does without one is compared with
the library.
-/

namespace DvbHost

set_option autoImplicit false

variable {α β : Type}

/-- What stops a computation that checks its indices and its words. -/
inductive Fault where
  /-- No octet has the index. -/
  | index
  /-- The bounds are out of order or past the end. -/
  | slice
  /-- The word cannot hold the number. -/
  | overflow
  deriving DecidableEq

/-- A computation that a fault can stop. -/
abbrev Checked := Except Fault

namespace Checked

/-- The octet at an index. -/
def octet (bs : Bytes) (i : Nat) : Checked UInt8 :=
  match bs[i]? with
  | some b => .ok b
  | none => .error .index

/-- The octets from one index up to another. -/
def slice (bs : Bytes) (low high : Nat) : Checked Bytes :=
  if low ≤ high ∧ high ≤ bs.length then .ok ((bs.take high).drop low) else .error .slice

/-- The octets from an index on. -/
def suffix (bs : Bytes) (low : Nat) : Checked Bytes :=
  if low ≤ bs.length then .ok (bs.drop low) else .error .slice

/-- A number in an unsigned word. -/
def word (width n : Nat) : Checked Nat := if n < 2 ^ width then .ok n else .error .overflow

/-- A difference in an unsigned word. -/
def minus (m n : Nat) : Checked Nat := if n ≤ m then .ok (m - n) else .error .overflow

/-- A number in a signed word. -/
def signed (width : Nat) (n : Int) : Checked Int :=
  if -(2 ^ (width - 1)) ≤ n ∧ n < 2 ^ (width - 1) then .ok n else .error .overflow

theorem ok_bind (a : α) (f : α → Checked β) : (Except.ok a >>= f) = f a := rfl

theorem slice_eq {bs : Bytes} {low high : Nat} (hlow : low ≤ high) (hhigh : high ≤ bs.length) :
    slice bs low high = .ok ((bs.take high).drop low) :=
  if_pos ⟨hlow, hhigh⟩

theorem suffix_eq {bs : Bytes} {low : Nat} (hlow : low ≤ bs.length) :
    suffix bs low = .ok (bs.drop low) :=
  if_pos hlow

/-- What follows the octets at the front. -/
theorem suffix_append (head tail : Bytes) : suffix (head ++ tail) head.length = .ok tail := by
  rw [suffix_eq (by rw [List.length_append]; exact Nat.le_add_right ..), List.drop_left]

theorem word_eq {width n : Nat} (h : n < 2 ^ width) : word width n = .ok n := if_pos h

theorem minus_eq {m n : Nat} (h : n ≤ m) : minus m n = .ok (m - n) := if_pos h

theorem signed_eq {width : Nat} {n : Int} (hlow : -(2 ^ (width - 1)) ≤ n)
    (hhigh : n < 2 ^ (width - 1)) : signed width n = .ok n :=
  if_pos ⟨hlow, hhigh⟩

/-- A list of computations of which some may end in one fault: the first that does ends it. -/
theorem mapM_ite {f : α → Checked β} {g : α → β} {c : α → Bool} {e : Fault} {as : List α}
    (h : ∀ a ∈ as, f a = if c a then .ok (g a) else .error e) :
    as.mapM f = if as.all c then .ok (as.map g) else .error e := by
  induction as with
  | nil => rfl
  | cons a as ih =>
    have hhead := h a List.mem_cons_self
    have htail := ih fun b hb => h b (List.mem_cons_of_mem a hb)
    rw [List.mapM_cons, hhead, htail, List.all_cons]
    cases c a with
    | false => rfl
    | true => cases as.all c <;> rfl

/-- A list of computations that all end without a fault. -/
theorem mapM_eq {f : α → Checked β} {g : α → β} {as : List α} (h : ∀ a ∈ as, f a = .ok (g a)) :
    as.mapM f = .ok (as.map g) := by
  have hall := mapM_ite (c := fun _ => true) (e := .overflow) h
  rwa [if_pos (List.all_eq_true.mpr fun _ _ => rfl)] at hall

end Checked

/-! ## With errors -/

/-- A computation that gives a value or an error, if no fault stops it. -/
abbrev Decoding := ExceptT SiError Checked

namespace Decoding

/-- An outcome of the library. -/
def ofResult (r : Except SiError α) : Decoding α := ExceptT.mk (.ok r)

/-- A computation that a fault has stopped. -/
def fault (f : Fault) : Decoding α := ExceptT.mk (.error f)

/-- A computation that has no errors of its own. -/
def check (c : Checked α) : Decoding α := ExceptT.mk (c.map .ok)

/-- Goes on only under a condition. -/
def require (c : Prop) [Decidable c] (e : SiError) : Decoding Unit :=
  if c then pure () else throw e

theorem require_true {c : Prop} [Decidable c] (h : c) (e : SiError) : require c e = pure () :=
  if_pos h

theorem require_false {c : Prop} [Decidable c] (h : ¬ c) (e : SiError) : require c e = throw e :=
  if_neg h

theorem check_ok (a : α) : check (.ok a) = pure a := rfl

/-- An outcome of the library is no fault. -/
theorem ofResult_ne_fault (r : Except SiError α) (f : Fault) : ofResult r ≠ fault f := by
  intro h
  have hrun := congrArg ExceptT.run h
  cases hrun

theorem ofResult_bind (r : Except SiError α) (f : α → Except SiError β) :
    ofResult (r >>= f) = ofResult r >>= fun a => ofResult (f a) := by
  cases r <;> rfl

theorem ofResult_map (r : Except SiError α) (f : α → β) :
    ofResult (r.map f) = f <$> ofResult r := by
  cases r <;> rfl

end Decoding

end DvbHost
