import TokioTquic.Command

/-!
# `process_command` on a connection

`conn` is what `endpoint.conn_get_mut(conn_id)` yields. Every arm answers
`LocallyClosed` or does nothing when there is no such connection, so a command
touches at most the connection that holds its index.
-/

namespace TokioTquic
set_option autoImplicit false

universe u v
variable {κ : Type u} {ρ : Type v}

/-! ## Translation of the engine's results -/

def openReply : Option (Except TquicError Nat) → Except ConnectionError Nat
  | some (.ok streamId) => .ok streamId
  | some (.error _) => .error .locallyClosed
  | none => .error .locallyClosed

def writeReply : Option (Except TquicError Nat) → Except WriteError Nat
  | some (.ok n) => .ok n
  | some (.error .done) => .ok 0
  | some (.error (.streamStopped code)) => .error (.stopped (.fromU32 code))
  | some (.error _) => .error .closedStream
  | none => .error (.connectionLost .locallyClosed)

/-- The buffer handed to the engine has `maxLen` bytes. -/
def readReply (maxLen : Nat) :
    Option (Except TquicError (Bytes × Bool)) → Except ReadError (Bytes × Bool)
  | some (.ok (data, fin)) => .ok (data.take maxLen, fin)
  | some (.error .done) => .ok ([], false)
  | some (.error (.streamReset code)) => .error (.reset (.fromU32 code))
  | some (.error _) => .error .closedStream
  | none => .error (.connectionLost .locallyClosed)

/-- The arms of the path commands differ in the name their error text starts with. -/
def pathReply {α : Type} (T : Tquic κ) (name : String) :
    Option (Except TquicError α) → Except ConnectionError α
  | some (.ok a) => .ok a
  | some (.error e) => .error (.transportError 0 (name ++ ": " ++ T.displayError e))
  | none => .error .locallyClosed

def copyPathStats (s : PathStats) : PathStats where
  recvCount := s.recvCount
  recvBytes := s.recvBytes
  sentCount := s.sentCount
  sentBytes := s.sentBytes
  lostCount := s.lostCount
  lostBytes := s.lostBytes
  ackedCount := s.ackedCount
  ackedBytes := s.ackedBytes
  initCwnd := s.initCwnd
  finalCwnd := s.finalCwnd
  maxCwnd := s.maxCwnd
  minCwnd := s.minCwnd
  maxInflight := s.maxInflight
  lossEventCount := s.lossEventCount
  cwndLimitedCount := s.cwndLimitedCount
  cwndLimitedDuration := s.cwndLimitedDuration
  minRtt := s.minRtt
  maxRtt := s.maxRtt
  srtt := s.srtt
  rttvar := s.rttvar
  inSlowStart := s.inSlowStart
  pacingRate := s.pacingRate
  minPacingRate := s.minPacingRate
  ptoCount := s.ptoCount

/-- `GetRtt`: the smoothed RTT of the first path, zero without a path. -/
def rttReply (T : Tquic κ) : Option κ → Option Duration
  | some conn =>
    match (T.pathsIter conn).head? with
    | some path =>
      match T.getPathStats conn path.localAddr path.remoteAddr with
      | .ok stats => some (.fromMicros stats.srtt)
      | .error _ => none
    | none => some ⟨0, 0⟩
  | none => none

/-! ## The commands -/

def refused : Bytes := [0x72, 0x65, 0x66, 0x75, 0x73, 0x65, 0x64]

def onEngine {α : Type v} (conn : Option κ) (op : κ → α × κ) : Option α × Option κ :=
  match conn with
  | some c => (some (op c).1, some (op c).2)
  | none => (none, none)

def processConnCommand (T : Tquic κ) (conn : Option κ) :
    ConnCommand ρ → Option κ × Option (ρ × Reply)
  | .refuseIncoming => (conn.map fun c => T.close c false 2 refused, none)
  | .closeConnection code reason => (conn.map fun c => T.close c true code reason, none)
  | .openBiStream respond =>
    let (r, conn) := onEngine conn T.streamBidiNew
    (conn, some (respond, .opened (openReply r)))
  | .openUniStream respond =>
    let (r, conn) := onEngine conn T.streamUniNew
    (conn, some (respond, .opened (openReply r)))
  | .streamWrite streamId data fin respond =>
    let (r, conn) := onEngine conn fun c => T.streamWrite c streamId data fin
    (conn, some (respond, .written (writeReply r)))
  | .streamRead streamId maxLen respond =>
    let (r, conn) := onEngine conn fun c => T.streamRead c streamId maxLen
    (conn, some (respond, .read (readReply maxLen r)))
  | .streamShutdownRead streamId code =>
    (conn.map fun c => T.streamShutdown c streamId .read code, none)
  | .streamShutdownWrite streamId code =>
    (conn.map fun c => T.streamShutdown c streamId .write code, none)
  | .streamSetPriority streamId urgency =>
    (conn.map fun c => T.streamSetPriority c streamId urgency false, none)
  | .getRtt respond => (conn, some (respond, .rtt (rttReply T conn)))
  | .addPath l r respond =>
    let (res, conn) := onEngine conn fun c => T.addPath c l r
    (conn, some (respond, .path (pathReply T "add_path" res)))
  | .abandonPath l r respond =>
    let (res, conn) := onEngine conn fun c => T.abandonPath c l r
    (conn, some (respond, .path (pathReply T "abandon_path" res)))
  | .migratePath l r respond =>
    let (res, conn) := onEngine conn fun c => T.migratePath c l r
    (conn, some (respond, .path (pathReply T "migrate_path" res)))
  | .getPathStats l r respond =>
    let res := conn.map fun c => (T.getPathStats c l r).map copyPathStats
    (conn, some (respond, .pathStats (pathReply T "get_path_stats" res)))
  | .getPaths respond =>
    (conn, some (respond, .paths (match conn with
      | some c => .ok (T.pathsIter c)
      | none => .error .locallyClosed)))

/-- How a pass of the request loops in `read` and `write` goes on. -/
inductive Pass (α : Type u) where
  | wait
  | ret (result : α)
  deriving DecidableEq

inductive Poll (α : Type u) where
  | pending
  | ready (result : α)
  deriving DecidableEq

def Pass.map {α β : Type u} (f : α → β) : Pass α → Pass β
  | .wait => .wait
  | .ret result => .ret (f result)

theorem processConnCommand_none (T : Tquic κ) (cmd : ConnCommand ρ) :
    (processConnCommand T none cmd).1 = none := by
  cases cmd <;> rfl

theorem processConnCommand_some (T : Tquic κ) (conn : κ) (cmd : ConnCommand ρ) :
    ∃ conn', (processConnCommand T (some conn) cmd).1 = some conn' := by
  cases cmd <;> exact ⟨_, rfl⟩

@[simp] theorem readReply_length {maxLen : Nat} {r : Option (Except TquicError (Bytes × Bool))}
    {data : Bytes} {fin : Bool} (h : readReply maxLen r = .ok (data, fin)) :
    data.length ≤ maxLen := by
  unfold readReply at h
  split at h <;> simp at h
  · obtain ⟨rfl, rfl⟩ := h
    exact List.length_take_le _ _
  · simp [h.1]

end TokioTquic
