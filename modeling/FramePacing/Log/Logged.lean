import FramePacing.Log.Message

/-!
# Operations that log

Every operation of the library is a function.  One that logs returns a `Logged` value: its result
together with the messages, oldest first.  Who receives them is decided by the caller, so that no
result can depend on it.

* `value_bind`, `messages_bind` — in a sequence of two operations the second one sees the result of
  the first, and its messages come after.
* `value_foldlM` — so it is in a run of many.
-/

namespace FramePacing.Log

/-- A result and the messages logged on the way to it, oldest first. -/
structure Logged (α : Type) where
  value : α
  messages : List Message
deriving DecidableEq

namespace Logged

instance : Monad Logged where
  pure a := ⟨a, []⟩
  bind x f := ⟨(f x.value).value, x.messages ++ (f x.value).messages⟩

def say (level : Level) (component : Component) (text : String) : Logged Unit :=
  ⟨(), [⟨level, component, text⟩]⟩

variable {α β : Type}

@[simp] theorem value_pure (a : α) : (pure a : Logged α).value = a := rfl

@[simp] theorem messages_pure (a : α) : (pure a : Logged α).messages = [] := rfl

@[simp] theorem value_bind (x : Logged α) (f : α → Logged β) :
    (x >>= f).value = (f x.value).value := rfl

@[simp] theorem value_map (f : α → β) (x : Logged α) : (f <$> x).value = f x.value := rfl

@[simp] theorem messages_bind (x : Logged α) (f : α → Logged β) :
    (x >>= f).messages = x.messages ++ (f x.value).messages := rfl

@[simp] theorem messages_say (level : Level) (component : Component) (text : String) :
    (say level component text).messages = [⟨level, component, text⟩] := rfl

instance : LawfulMonad Logged :=
  LawfulMonad.mk' Logged
    (fun x => by cases x; simp [Functor.map])
    (fun _ _ => by simp [bind, pure])
    (fun _ _ _ => by simp [bind, List.append_assoc])

theorem value_foldlM (f : β → α → Logged β) (b : β) (as : List α) :
    (as.foldlM f b).value = as.foldl (fun b a => (f b a).value) b := by
  induction as generalizing b with
  | nil => rfl
  | cons a as ih => rw [List.foldlM_cons, value_bind, ih, List.foldl_cons]

end Logged

end FramePacing.Log
