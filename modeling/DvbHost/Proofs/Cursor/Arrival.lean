import DvbHost.Proofs.Cursor

/-!
# Reading octets that are still arriving

A reading is steady if, unless it says that octets are missing, more octets change nothing but what
is left unread. The steps that take fields are steady, and so is what is made of them. Of data that
a steady reading uses up, every shorter beginning lacks octets (`Steady.truncated`).
-/

namespace DvbHost.Cursor

set_option autoImplicit false

variable {α β : Type} {p : Cursor α} {f : α → Cursor β}

/-- Unless octets are missing, more of them change nothing but what is left. -/
def Steady (p : Cursor α) : Prop :=
  ∀ s, (p s).1 ≠ .error .truncatedData → ∀ x, p (s ++ x) = ((p s).1, (p s).2 ++ x)

theorem steady_pure (a : α) : Steady (pure a) := fun _ _ _ => rfl

theorem steady_u8 : Steady u8 := by
  intro s hs x
  cases s with
  | nil => exact absurd rfl hs
  | cons b s => rfl

theorem steady_bytes (n : Nat) : Steady (bytes n) := by
  intro s hs x
  cases hsplit : s.split? n with
  | none =>
    rw [bytes, hsplit] at hs
    exact absurd rfl hs
  | some parts =>
    rw [bytes, bytes, hsplit, Bytes.split?_append hsplit x]

theorem Steady.bind (hp : Steady p) (hf : ∀ a, Steady (f a)) : Steady (p >>= f) := by
  intro s hs x
  cases hstep : p s with
  | mk outcome rest =>
    cases outcome with
    | ok a =>
      have hlonger : p (s ++ x) = (.ok a, rest ++ x) := by
        rw [hp s (by rw [hstep]; nofun) x, hstep]
      rw [bind_ok hstep] at hs ⊢
      rw [bind_ok hlonger]
      exact hf a rest hs x
    | error e =>
      rw [bind_error hstep] at hs ⊢
      have hlonger : p (s ++ x) = (.error e, rest ++ x) := by
        rw [hp s (hstep ▸ fun he => hs (congrArg _ (Except.error.inj he))) x, hstep]
      rw [bind_error hlonger]

theorem Steady.map (hp : Steady p) (g : α → β) : Steady (p >>= fun a => pure (g a)) :=
  hp.bind fun a => steady_pure (g a)

theorem Steady.repeated (hp : Steady p) (n : Nat) : Steady (repeated p n) := by
  induction n with
  | zero => exact steady_pure []
  | succ n ih => exact hp.bind fun a => ih.map (List.cons a)

theorem steady_counted : Steady counted := steady_u8.bind fun n => steady_bytes n.toNat

/-- A beginning of data that the reading uses up lacks octets. -/
theorem Steady.truncated (hp : Steady p) {s x : Bytes} {a : α} (hx : x ≠ [])
    (h : p (s ++ x) = (.ok a, [])) : (p s).1 = .error .truncatedData := by
  by_contra hs
  have hrest := congrArg Prod.snd (hp s hs x)
  rw [h] at hrest
  exact hx (List.append_eq_nil_iff.mp hrest.symm).2

/-- Nor does a reading that must use up the data make more of such a beginning. -/
theorem Steady.truncated_exactly (hp : Steady p) {s x : Bytes} {a : α} (hx : x ≠ [])
    (h : p (s ++ x) = (.ok a, [])) : p.exactly.run s = .error .truncatedData := by
  have hs : p s = (.error .truncatedData, (p s).2) := Prod.ext (hp.truncated hx h) rfl
  exact congrArg Prod.fst (bind_error hs)

end DvbHost.Cursor
