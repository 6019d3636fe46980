import Mathlib.Algebra.Ring.Nat

/-!
# Values and errors of the public API

`u64` values are natural numbers; the truncations of the code, `as u32` of
stream error codes and `as u64` of milliseconds, are written out where they
happen.
-/

namespace TokioTquic
set_option autoImplicit false

universe u v

instance exceptDecidableEq {ε : Type u} {α : Type v} [DecidableEq ε] [DecidableEq α] :
    DecidableEq (Except ε α)
  | .ok a, .ok b =>
    if h : a = b then .isTrue (congrArg _ h) else .isFalse fun heq => h (Except.ok.inj heq)
  | .error a, .error b =>
    if h : a = b then .isTrue (congrArg _ h) else .isFalse fun heq => h (Except.error.inj heq)
  | .ok _, .error _ => .isFalse nofun
  | .error _, .ok _ => .isFalse nofun

abbrev Bytes := List UInt8

structure SocketAddr where
  ip : Nat
  port : Nat
  deriving DecidableEq, Repr

def SocketAddr.unspecified : SocketAddr := ⟨0, 0⟩

structure FourTuple where
  localAddr : SocketAddr
  remoteAddr : SocketAddr
  deriving DecidableEq, Repr

structure Duration where
  secs : Nat
  nanos : Nat
  deriving DecidableEq, Repr

def Duration.fromMicros (micros : Nat) : Duration :=
  ⟨micros / 1000000, micros % 1000000 * 1000⟩

/-- Every constructor of the source keeps the value at or below `VarInt::MAX`. -/
structure VarInt where
  value : Nat
  le_max : value ≤ 2 ^ 62 - 1
  deriving DecidableEq

namespace VarInt

def fromU64 (v : Nat) : Option VarInt :=
  if h : v ≤ 2 ^ 62 - 1 then some ⟨v, h⟩ else none

def fromU32 (v : Nat) : VarInt :=
  ⟨v % 2 ^ 32, by have := Nat.mod_lt v (show 0 < 2 ^ 32 by decide); omega⟩

def intoInner (v : VarInt) : Nat := v.value

end VarInt

inductive Side where
  | client
  | server
  deriving DecidableEq, Repr

inductive Dir where
  | bi
  | uni
  deriving DecidableEq, Repr

inductive ConnectError where
  | endpointStopping
  | cidsExhausted
  | invalidDnsName (name : String)
  | invalidRemoteAddress (addr : SocketAddr)
  | noDefaultClientConfig
  deriving DecidableEq, Repr

inductive ConnectionError where
  | versionMismatch
  | transportError (code : Nat) (reason : String)
  | connectionClosed (errorCode : Nat) (reason : Bytes)
  | applicationClosed (errorCode : Nat) (reason : Bytes)
  | reset
  | timedOut
  | locallyClosed
  | cidsExhausted
  deriving DecidableEq, Repr

inductive ReadError where
  | reset (code : VarInt)
  | connectionLost (error : ConnectionError)
  | closedStream
  | zeroRttRejected
  deriving DecidableEq

inductive ReadExactError where
  | finishedEarly (read : Nat)
  | readError (error : ReadError)
  deriving DecidableEq

inductive ReadToEndError where
  | read (error : ReadError)
  | tooLong
  deriving DecidableEq

inductive WriteError where
  | stopped (code : VarInt)
  | connectionLost (error : ConnectionError)
  | closedStream
  | zeroRttRejected
  deriving DecidableEq

/-- The stream was already finished, reset or stopped. -/
inductive ClosedStream where
  | closedStream
  deriving DecidableEq, Repr

inductive ErrorKind where
  | brokenPipe
  deriving DecidableEq, Repr

structure IoError where
  kind : ErrorKind
  message : String
  deriving DecidableEq, Repr

/-- The errors of the engine that the bridge tells apart; `other` carries the
engine's text for every remaining one. -/
inductive TquicError where
  | done
  | streamStopped (code : Nat)
  | streamReset (code : Nat)
  | invalidConfig (text : String)
  | other (text : String)
  deriving DecidableEq, Repr

/-- The contents of a CONNECTION_CLOSE frame, as the engine reports it. -/
structure TquicConnError where
  isApp : Bool
  errorCode : Nat
  reason : Bytes
  deriving DecidableEq, Repr

/-- `display` stands for the text of a socket address. -/
def ConnectionError.fromConnectError (display : SocketAddr → String) :
    ConnectError → ConnectionError
  | .endpointStopping => .locallyClosed
  | .cidsExhausted => .cidsExhausted
  | .invalidDnsName name => .transportError 0 name
  | .invalidRemoteAddress addr => .transportError 0 ("invalid remote address: " ++ display addr)
  | .noDefaultClientConfig => .transportError 0 "no default client config"

def ConnectionError.fromTquicConnError (err : TquicConnError) : ConnectionError :=
  if err.isApp then .applicationClosed err.errorCode err.reason
  else .connectionClosed err.errorCode err.reason

end TokioTquic
