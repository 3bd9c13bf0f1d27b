-- SUMMARY: The TLS libraries that the native code can be built against.
import Tcnative.Base.Jni

/-!
# TLS libraries

The native code is compiled against one of four libraries. Its preprocessor
conditions mostly separate BoringSSL and AWS-LC from the other two.
-/

namespace Tls
open Jni

/-- The library of a build. -/
inductive Library where
  | openssl
  | libressl
  | boringssl
  | awslc
  deriving DecidableEq, Repr

/-- `defined(OPENSSL_IS_BORINGSSL) || defined(OPENSSL_IS_AWSLC)`. -/
def Library.isBoringSSL : Library → Bool
  | .openssl | .libressl => false
  | .boringssl | .awslc => true

/-- What a function throws that BoringSSL and AWS-LC do not have. -/
def Library.notSupported : Library → Option Throwable
  | .openssl | .libressl => none
  | .boringssl => some (.exception "Not supported using BoringSSL")
  | .awslc => some (.exception "Not supported using AWS-LC")

theorem Library.notSupported_eq_none (lib : Library) :
    lib.notSupported = none ↔ lib.isBoringSSL = false := by
  cases lib <;> decide

end Tls
