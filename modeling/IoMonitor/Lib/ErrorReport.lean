import Mathlib.Logic.Basic

/-!
How functions of the C library report errors.

A `Convention` says which results stand for success, and which result and which
error number stand for a failure. `Allows` is the contract of a function under
its convention. A call that meets the end of its input, or is asked for nothing,
reports no error.
-/

namespace ErrorReport

inductive Convention where
  /-- 0; or -1, with the error in `errno`. -/
  | status
  /-- A number that is not negative; or -1, with the error in `errno`. -/
  | number
  /-- A pointer; or null, with the error in `errno`. -/
  | pointer
  /-- A pointer, or null at the end; or null, with the error in `errno`. -/
  | entry
  /-- Any number; or -1, with the error in `errno`. -/
  | position
  /-- A number that is not negative; or a negative one, with the error in `errno`. -/
  | printed
  /-- A number that is not negative, or `EOF` at the end; or `EOF`, with the error in
  `errno`. -/
  | converted
  /-- How many of the items asked for were read, fewer only at the end; or fewer, with
  the error in `errno`. -/
  | itemsRead
  /-- The number of items asked for, or 0 where they have no size; or fewer, with the
  error in `errno`. -/
  | itemsWritten
  /-- 0; or the error number. -/
  | errorNumber
  /-- Nothing. -/
  | infallible
  deriving DecidableEq, Repr

def EOF : Int := -1

/-- A call as its caller sees it: `nmemb` items of `size` bytes were asked for. A
null pointer is 0. -/
structure Outcome where
  size : Int
  nmemb : Int
  result : Int
  errno : Int

namespace Convention

def Succeeds (o : Outcome) : Convention → Prop
  | status => o.result = 0
  | number => 0 ≤ o.result
  | pointer => o.result ≠ 0
  | entry => True
  | position => True
  | printed => 0 ≤ o.result
  | converted => 0 ≤ o.result ∨ o.result = EOF
  | itemsRead =>
      if o.size = 0 ∨ o.nmemb = 0 then o.result = 0 else 0 ≤ o.result ∧ o.result ≤ o.nmemb
  | itemsWritten => if o.size = 0 ∨ o.nmemb = 0 then o.result = 0 else o.result = o.nmemb
  | errorNumber => o.result = 0
  | infallible => True

/-- The call fails with error number `e`. -/
def Fails (o : Outcome) (e : Int) : Convention → Prop
  | status => o.result = -1 ∧ o.errno = e
  | number => o.result = -1 ∧ o.errno = e
  | pointer => o.result = 0 ∧ o.errno = e
  | entry => o.result = 0 ∧ o.errno = e
  | position => o.result = -1 ∧ o.errno = e
  | printed => o.result < 0 ∧ o.errno = e
  | converted => o.result = EOF ∧ o.errno = e
  | itemsRead | itemsWritten =>
      o.size ≠ 0 ∧ 0 ≤ o.result ∧ o.result < o.nmemb ∧ o.errno = e
  | errorNumber => o.result = e
  | infallible => False

instance (o : Outcome) (c : Convention) : Decidable (c.Succeeds o) := by
  cases c <;> unfold Succeeds <;> infer_instance

instance (o : Outcome) (e : Int) (c : Convention) : Decidable (c.Fails o e) := by
  cases c <;> unfold Fails <;> infer_instance

/-- The outcomes of a call that reports the error number given, or none. `errno` is
arbitrary where the function does not set it. -/
def Allows (c : Convention) (o : Outcome) : Option Int → Prop
  | none => c.Succeeds o
  | some e => 0 < e ∧ c.Fails o e

instance (c : Convention) (o : Outcome) (error : Option Int) : Decidable (c.Allows o error) := by
  cases error <;> unfold Allows <;> infer_instance

end Convention

/-! ### Error codes -/

/-- The code is 0 iff the call succeeded, and else the error number it reported. -/
structure Truthful (code : Int) (error : Option Int) : Prop where
  zero : code = 0 ↔ error = none
  number : ∀ e ∈ error, code = e

/-- A code that is `errno` where some test of the call holds, and 0 elsewhere. -/
theorem truthful_iff {c : Convention} {o : Outcome} {error : Option Int}
    (allowed : c.Allows o error) (taken : Bool) :
    Truthful (if taken then o.errno else 0) error ↔
      (error = none → taken = true → o.errno = 0) ∧
        ∀ e ∈ error, taken = true ∧ o.errno = e := by
  cases error with
  | none =>
      constructor
      · intro truthful
        refine ⟨fun _ h => ?_, by simp⟩
        simpa [h] using truthful.zero
      · rintro ⟨quiet, -⟩
        refine ⟨?_, by simp⟩
        cases taken with
        | false => simp
        | true => simpa using quiet
  | some e =>
      have positive : 0 < e := allowed.1
      constructor
      · intro truthful
        have code := truthful.number e rfl
        refine ⟨fun h => absurd h (by simp), fun e' he => ?_⟩
        cases he
        cases taken with
        | false =>
            rw [if_neg Bool.false_ne_true] at code
            omega
        | true => exact ⟨rfl, by simpa using code⟩
      · rintro ⟨-, number⟩
        obtain ⟨rfl, errno⟩ := number e rfl
        constructor
        · simp only [if_true, errno, reduceCtorEq, iff_false]
          omega
        · intro e' he
          cases he
          simpa using errno

end ErrorReport
