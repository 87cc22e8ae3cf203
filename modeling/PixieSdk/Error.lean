import Mathlib.Data.List.Basic

/-! # Errors and how a call ends

The error codes of `pixie::error::code`, the exceptions the crate and configuration code
can see, and the three ways a call ends in C++: it returns, it throws, or the process is
terminated (a `std::thread` still joinable is destroyed). -/

namespace PixieSdk

/-- `pixie::error::code`, the kinds the crate, module and configuration code raise.
`success` is the value the worker promises carry when nothing failed. -/
inductive Code where
  | success
  | crateNotReady
  | crateAlreadyOpen
  | moduleNotFound
  | moduleNumberInvalid
  | moduleSlotInvalid
  | moduleAlreadyOpen
  | moduleOffline
  | moduleInitializeFailure
  | channelNumberInvalid
  | invalidValue
  | configJsonError
  | fileOpenFailure
  | fileReadFailure
  | internalFailure
  deriving DecidableEq, Repr

/-- An exception in flight: a `pixie::error::error` of a kind with its message, an
`nlohmann::json` exception with its id (302 type must be, 305 `operator[]`, 308
`push_back`), a `std::future_error`, or any other exception. -/
inductive Exception where
  | pixie (c : Code) (what : String)
  | json (id : ℕ)
  | futureError
  | other
  deriving DecidableEq, Repr

/-- Results of a body run in `Except` compare by constructor and contents. -/
instance decEqExcept {ε α : Type} [DecidableEq ε] [DecidableEq α] : DecidableEq (Except ε α)
  | .error a, .error b => decidable_of_iff (a = b) (by simp)
  | .ok a, .ok b => decidable_of_iff (a = b) (by simp)
  | .error _, .ok _ => isFalse (by simp)
  | .ok _, .error _ => isFalse (by simp)

/-- How a call ends. `terminated` is `std::terminate`, which C++ calls when a joinable
`std::thread` is destroyed while an exception unwinds; `undefined` is a read past the end of
a `std::vector`, after which C++ gives the program no meaning. -/
inductive Exit (α : Type) where
  | returned (a : α)
  | threw (e : Exception)
  | terminated
  | undefined
  deriving DecidableEq, Repr

/-- The exit of a call whose body ran in `Except`. -/
def Exit.ofExcept {α : Type} : Except Exception α → Exit α
  | .ok a => .returned a
  | .error e => .threw e

@[simp] theorem Exit.ofExcept_ok {α : Type} (a : α) :
    Exit.ofExcept (.ok a : Except Exception α) = .returned a := rfl

@[simp] theorem Exit.ofExcept_error {α : Type} (e : Exception) :
    Exit.ofExcept (.error e : Except Exception α) = .threw e := rfl

/-- The same exit with `f` applied to the returned value. -/
def Exit.map {α β : Type} (f : α → β) : Exit α → Exit β
  | .returned a => .returned (f a)
  | .threw e => .threw e
  | .terminated => .terminated
  | .undefined => .undefined

/-- The same exit with the returned value dropped. -/
def Exit.drop {α : Type} : Exit α → Exit Unit
  | .returned _ => .returned ()
  | .threw e => .threw e
  | .terminated => .terminated
  | .undefined => .undefined

@[simp] theorem Exit.map_threw {α β : Type} (f : α → β) (e : Exception) :
    (Exit.threw e : Exit α).map f = .threw e := rfl

@[simp] theorem Exit.map_drop {α β : Type} (f : Unit → β) (e : Exit α) :
    e.drop.map f = e.map fun _ => f () := by
  cases e <;> rfl

end PixieSdk
