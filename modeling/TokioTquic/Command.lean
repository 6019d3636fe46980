import TokioTquic.Error

/-!
# Bridge commands

The commands that carry a `conn_id` are grouped as `ConnCommand`; all of them
look the connection up first. `ρ` is the address of the oneshot sender a
command carries as `respond`.
-/

namespace TokioTquic
set_option autoImplicit false

universe u v

inductive ConnCommand (ρ : Type u) where
  | refuseIncoming
  | closeConnection (errorCode : Nat) (reason : Bytes)
  | openBiStream (respond : ρ)
  | openUniStream (respond : ρ)
  | streamWrite (streamId : Nat) (data : Bytes) (fin : Bool) (respond : ρ)
  | streamRead (streamId maxLen : Nat) (respond : ρ)
  | streamShutdownRead (streamId errorCode : Nat)
  | streamShutdownWrite (streamId errorCode : Nat)
  | streamSetPriority (streamId urgency : Nat)
  | getRtt (respond : ρ)
  | addPath (localAddr remoteAddr : SocketAddr) (respond : ρ)
  | abandonPath (localAddr remoteAddr : SocketAddr) (respond : ρ)
  | migratePath (localAddr remoteAddr : SocketAddr) (respond : ρ)
  | getPathStats (localAddr remoteAddr : SocketAddr) (respond : ρ)
  | getPaths (respond : ρ)
  deriving DecidableEq

inductive BridgeCommand (χ ψ : Type v) (ρ : Type u) where
  | connect (addr : SocketAddr) (serverName : String) (clientConfig : Option χ) (respond : ρ)
  | setServerConfig (config : Option ψ)
  | setDefaultClientConfig (config : χ)
  | closeEndpoint (errorCode : Nat) (reason : Bytes)
  | acceptIncoming
  | onConn (connId : Nat) (cmd : ConnCommand ρ)

structure PathStats where
  (recvCount recvBytes sentCount sentBytes lostCount lostBytes ackedCount ackedBytes : Nat)
  (initCwnd finalCwnd maxCwnd minCwnd maxInflight lossEventCount : Nat)
  (cwndLimitedCount cwndLimitedDuration minRtt maxRtt srtt rttvar : Nat)
  (inSlowStart : Bool)
  (pacingRate minPacingRate ptoCount : Nat)
  deriving DecidableEq, Repr

/-- What a command sends back on its oneshot channel. -/
inductive Reply where
  | connected (result : Except ConnectError Nat)
  | opened (result : Except ConnectionError Nat)
  | written (result : Except WriteError Nat)
  | read (result : Except ReadError (Bytes × Bool))
  | rtt (result : Option Duration)
  | path (result : Except ConnectionError Unit)
  | pathStats (result : Except ConnectionError PathStats)
  | paths (result : Except ConnectionError (List FourTuple))

inductive Shutdown where
  | read
  | write
  deriving DecidableEq, Repr

/-- The engine's operations on one connection, as the bridge calls them; each
returns its result and the connection's next state. `streamRead` returns the
bytes it wrote to the buffer. -/
structure Tquic (κ : Type u) where
  close : κ → Bool → Nat → Bytes → κ
  streamBidiNew : κ → Except TquicError Nat × κ
  streamUniNew : κ → Except TquicError Nat × κ
  streamWrite : κ → Nat → Bytes → Bool → Except TquicError Nat × κ
  streamRead : κ → Nat → Nat → Except TquicError (Bytes × Bool) × κ
  streamShutdown : κ → Nat → Shutdown → Nat → κ
  streamSetPriority : κ → Nat → Nat → Bool → κ
  pathsIter : κ → List FourTuple
  getPathStats : κ → SocketAddr → SocketAddr → Except TquicError PathStats
  addPath : κ → SocketAddr → SocketAddr → Except TquicError Unit × κ
  abandonPath : κ → SocketAddr → SocketAddr → Except TquicError Unit × κ
  migratePath : κ → SocketAddr → SocketAddr → Except TquicError Unit × κ
  displayError : TquicError → String

/-- The answers an engine is going to give, for concrete runs. -/
structure Script where
  reads : List (Except TquicError (Bytes × Bool)) := []
  writes : List (Except TquicError Nat) := []
  opens : List Nat := []
  closes : List Nat := []

namespace Script

def popRead (s : Script) : Except TquicError (Bytes × Bool) × Script :=
  match s.reads with
  | [] => (.error .done, s)
  | r :: reads => (r, { s with reads := reads })

def popWrite (s : Script) : Except TquicError Nat × Script :=
  match s.writes with
  | [] => (.error .done, s)
  | r :: writes => (r, { s with writes := writes })

def popOpen (s : Script) : Except TquicError Nat × Script :=
  match s.opens with
  | [] => (.error .done, s)
  | streamId :: opens => (.ok streamId, { s with opens := opens })

end Script

/-- An engine that plays a script; `closes` collects the error codes of `close`. -/
def Tquic.scripted : Tquic Script where
  close s _ code _ := { s with closes := s.closes ++ [code] }
  streamBidiNew := Script.popOpen
  streamUniNew := Script.popOpen
  streamWrite s _ _ _ := s.popWrite
  streamRead s _ _ := s.popRead
  streamShutdown s _ _ _ := s
  streamSetPriority s _ _ _ := s
  pathsIter _ := []
  getPathStats _ _ _ := .error .done
  addPath s _ _ := (.error .done, s)
  abandonPath s _ _ := (.error .done, s)
  migratePath s _ _ := (.error .done, s)
  displayError _ := "error"

end TokioTquic
