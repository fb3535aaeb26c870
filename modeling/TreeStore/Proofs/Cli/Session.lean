import TreeStore.Cli.Run

/-! What actions do in a session: what becomes of the session, step by step, and which actions leave its database as it
is. -/

namespace TreeStore.Cli

variable {m : Type → Type} [Monad m] {α β : Type}

def inSession (x : Action m α) (t : Session) : m (Except Failure α × Session) := StateT.run (ExceptT.run x) t

def andThen (f : α → Action m β) : Except Failure α × Session → m (Except Failure β × Session)
  | (.ok a, t) => inSession (f a) t
  | (.error e, t) => pure (.error e, t)

theorem inSession_bind (x : Action m α) (f : α → Action m β) (t : Session) :
    inSession (x >>= f) t = inSession x t >>= andThen f := by
  simp only [inSession, ExceptT.run_bind, StateT.run_bind]
  congr 1
  funext r
  rcases r with ⟨_ | _, _⟩ <;> rfl

def Prints (x : Action m α) : Prop := ∀ t, ∃ r t', inSession x t = pure (r, t') ∧ t'.database = t.database

namespace Prints

theorem pure (a : α) : Prints (Pure.pure a : Action m α) := fun t => ⟨.ok a, t, rfl, rfl⟩

theorem fail (e : Failure) : Prints (throw e : Action m α) := fun t => ⟨.error e, t, rfl, rfl⟩

theorem require {ε : Type} (context : String) (report : ε → List String) (x : Except ε α) :
    Prints (Cli.require context report x : Action m α) := by
  cases x with
  | ok a => exact .pure a
  | error e => exact .fail _

end Prints

variable [LawfulMonad m]

theorem inSession_modifyGet (f : Session → α × Session) (t : Session) :
    inSession (modifyGet f : Action m α) t = pure (.ok (f t).1, (f t).2) := by
  change StateT.run (Except.ok <$> (modifyGet f : StateT Session m α)) t = _
  simp

theorem inSession_database (f : Database ColumnValue → α × Database ColumnValue) (t : Session) :
    inSession (onDatabase f : Action m α) t = pure (.ok (f t.database).1, { t with database := (f t.database).2 }) :=
  inSession_modifyGet _ t

theorem inSession_input (context : String) (x : ExceptT InputError m α) (t : Session) :
    inSession (requireInput context x) t =
      x.run >>= fun r => pure (r.mapError fun e => .error (context :: e.report), t) := by
  unfold requireInput
  rw [inSession_bind]
  have lifted : inSession (liftM x.run : Action m _) t = x.run >>= fun r => pure (.ok r, t) := by
    simp [inSession, liftM, monadLift, MonadLift.monadLift]
  rw [lifted, bind_assoc]
  congr 1
  funext r
  cases r <;> exact pure_bind _ _

/-- Reading leaves a session as it is. -/
theorem inSession_input_congr {context : String} {x : ExceptT InputError m α} {f g : α → Action m β} {t : Session}
    (next : ∀ a, inSession (f a) t = inSession (g a) t) :
    inSession (requireInput context x >>= f) t = inSession (requireInput context x >>= g) t := by
  rw [inSession_bind, inSession_bind, inSession_input, bind_assoc, bind_assoc]
  congr 1
  funext r
  rw [pure_bind, pure_bind]
  cases r with
  | error e => rfl
  | ok a => exact next a

namespace Prints

theorem bind {x : Action m α} {f : α → Action m β} (first : Prints x) (next : ∀ a, Prints (f a)) :
    Prints (x >>= f) := by
  intro t
  obtain ⟨r, t', eq, same⟩ := first t
  rw [inSession_bind, eq, pure_bind]
  cases r with
  | error e => exact ⟨.error e, t', rfl, same⟩
  | ok a =>
    obtain ⟨r, t'', eq', same'⟩ := next a t'
    exact ⟨r, t'', eq', same'.trans same⟩

/-- What comes after such an action has to do the same in the sessions to which it may lead. -/
theorem congr {x : Action m α} (prints : Prints x) {f g : α → Action m β} {t : Session}
    (next : ∀ a t', t'.database = t.database → inSession (f a) t' = inSession (g a) t') :
    inSession (x >>= f) t = inSession (x >>= g) t := by
  obtain ⟨r, t', eq, same⟩ := prints t
  rw [inSession_bind, inSession_bind, eq, pure_bind, pure_bind]
  cases r with
  | error e => rfl
  | ok a => exact next a t' same

theorem message (s : String) : Prints (Cli.message s : Action m Unit) := fun t =>
  ⟨.ok (), { t with messages := t.messages ++ s ++ "\n" }, inSession_modifyGet _ t, rfl⟩

theorem line (s : String) : Prints (Cli.line s : Action m Unit) := fun t =>
  ⟨.ok (), { t with output := t.output ++ s ++ "\n" }, inSession_modifyGet _ t, rfl⟩

theorem remark (verbose : Bool) (s : String) : Prints (Cli.remark verbose s : Action m Unit) := by
  unfold Cli.remark
  split
  · exact .message _
  · exact .pure ()

end Prints

end TreeStore.Cli
