import Mathlib

/-!
# Debug-build assertions

The code checks its preconditions with `assert` and `ASSERT`, which a release
build compiles out.  A `Checked` computation carries the value the code computes
together with the text of every assertion that failed on the way, so one model
gives both builds: the release build's result, and whether the debug build stops.
-/

namespace Drlvm

/-- A computation of the debug build: the value the code computes, and the
text of every `assert` that failed on the way, in order.  A release build
computes the same value and checks nothing. -/
@[ext] structure Checked (α : Type) where
  value : α
  failed : List String

namespace Checked

instance : Monad Checked where
  pure value := ⟨value, []⟩
  bind x f := ⟨(f x.value).value, x.failed ++ (f x.value).failed⟩

/-- `assert(holds)`, recorded under the text of its condition. -/
def assert (holds : Bool) (text : String) : Checked Unit :=
  ⟨(), if holds then [] else [text]⟩

variable {α β : Type}

@[simp] theorem value_pure (a : α) : (pure a : Checked α).value = a := rfl

@[simp] theorem failed_pure (a : α) : (pure a : Checked α).failed = [] := rfl

@[simp] theorem value_bind (x : Checked α) (f : α → Checked β) :
    (x >>= f).value = (f x.value).value := rfl

@[simp] theorem failed_bind (x : Checked α) (f : α → Checked β) :
    (x >>= f).failed = x.failed ++ (f x.value).failed := rfl

@[simp] theorem failed_assert (holds : Bool) (text : String) :
    (assert holds text).failed = if holds then [] else [text] := rfl

@[simp] theorem pure_bind (a : α) (f : α → Checked β) : pure a >>= f = f a :=
  Checked.ext rfl (List.nil_append _)

/-- A computation that fails no assertion is its value. -/
theorem eq_pure_of_failed {x : Checked α} (none : x.failed = []) : x = pure x.value :=
  Checked.ext rfl none

/-- An assertion that holds records nothing. -/
@[simp] theorem assert_true_bind (text : String) (f : Unit → Checked α) :
    assert true text >>= f = f () :=
  Checked.ext rfl (List.nil_append _)

end Checked

end Drlvm
