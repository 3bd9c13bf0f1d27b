-- SUMMARY: The Java side of a native call: arrays, and the exceptions that native code throws into Java.
import Tcnative.Base.Memory

/-!
# Java values seen from native code

The exceptions that the `TCN_CHECK_*` macros and the `tcn_Throw*` functions
raise, with the text they carry, and the byte arrays that cross the border.
-/

namespace Jni

/-- A Java exception thrown by native code. -/
inductive Throwable where
  | nullPointerException (msg : String)
  | illegalArgumentException (msg : String)
  | outOfMemoryError (msg : String)
  | exception (msg : String)
  deriving DecidableEq, Repr

/-- A Java array has at most `Integer.MAX_VALUE` elements. -/
def IsArrayLength (n : Nat) : Prop := n < 0x80000000

instance (n : Nat) : Decidable (IsArrayLength n) := inferInstanceAs (Decidable (_ < _))

/-- A Java `byte[]`. -/
structure JByteArray where
  bytes : List Byte
  length_lt : IsArrayLength bytes.length
  deriving DecidableEq

/-- What native code passes to a Java method. -/
inductive JValue where
  | long (n : Int)
  | int (n : Int)
  | byteArray (a : JByteArray)
  deriving DecidableEq

/-- `TCN_CHECK_NULL(V, M, R)`. -/
def checkNull {α β : Type} (v : Option α) (msg : String) (k : α → Except Throwable β) :
    Except Throwable β :=
  match v with
  | none => .error (.nullPointerException msg)
  | some a => k a

/-- `TCN_CHECK_POSITIVE_OR_ZERO(V, M, R)`. -/
def checkPositiveOrZero {β : Type} (v : Int) (msg : String) (k : Except Throwable β) :
    Except Throwable β :=
  if v < 0 then .error (.illegalArgumentException msg) else k

/-- `TCN_CHECK_POSITIVE(V, M, R)`. -/
def checkPositive {β : Type} (v : Int) (msg : String) (k : Except Throwable β) :
    Except Throwable β :=
  if v ≤ 0 then .error (.illegalArgumentException msg) else k

end Jni
