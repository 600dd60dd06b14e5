import Mathlib.Data.List.AList
import SkadiCore.Core.Io
import SkadiCore.Mux.Frame

/-!
# The XUDP registry

Model of `XudpManager` (`crates/skadi-transport/src/xudp.rs`): the process-wide
registry of UDP sockets by GlobalID. Every operation runs under the lock of the
registry, so each is one function on its state. Instants are nanoseconds; a
socket is a number; `η` is the type of abort handles. An operation returns the
handles it aborts.
-/

namespace SkadiCore.Mux

def XUDP_EXPIRE_TTL : ℕ := 60 * 10 ^ 9

inductive XudpStatus
  | active
  | initializing
  | expiring
  deriving DecidableEq

structure XudpEntry (η : Type*) where
  socket : ℕ
  status : XudpStatus
  expireAt : Option ℕ
  readerAbort : Option η
  deriving DecidableEq

structure XudpManager (η : Type*) where
  entries : AList fun _ : GlobalId => XudpEntry η

namespace XudpManager

variable {η : Type*}

def new : XudpManager η := ⟨∅⟩

/-- `acquire_inner` (lines 69-100). `bind` is the outcome of
    `UdpSocket::bind("0.0.0.0:0")`, used when the id is not registered. The
    result is the socket and whether it was registered before. -/
def acquireInner (m : XudpManager η) (globalId : GlobalId) (bind : Except String ℕ) :
    XudpManager η × List η × Except IoError (ℕ × Bool) :=
  match m.entries.lookup globalId with
  | some entry =>
    if entry.status = .initializing then (m, [], .ok (entry.socket, true))
    else
      let entry' := { entry with readerAbort := none, expireAt := none, status := .active }
      (⟨m.entries.insert globalId entry'⟩, entry.readerAbort.toList, .ok (entry.socket, true))
  | none =>
    match bind with
    | .error e => (m, [], .error ⟨.other, e⟩)
    | .ok socket =>
      (⟨m.entries.insert globalId ⟨socket, .active, none, none⟩⟩, [], .ok (socket, false))

/-- `detach_inner` (lines 102-114) at the instant `now`. -/
def detachInner (m : XudpManager η) (globalId : GlobalId) (now : ℕ) : XudpManager η × List η :=
  match m.entries.lookup globalId with
  | some entry =>
    if entry.status = .active then
      let entry' := { entry with
        readerAbort := none, status := .expiring, expireAt := some (now + XUDP_EXPIRE_TTL) }
      (⟨m.entries.insert globalId entry'⟩, entry.readerAbort.toList)
    else (m, [])
  | none => (m, [])

/-- `register_reader_inner` (lines 116-121). -/
def registerReaderInner (m : XudpManager η) (globalId : GlobalId) (abort : η) : XudpManager η :=
  match m.entries.lookup globalId with
  | some entry => ⟨m.entries.insert globalId { entry with readerAbort := some abort }⟩
  | none => m

def expired (now : ℕ) (e : XudpEntry η) : Bool :=
  e.status == .expiring && e.expireAt.any fun t => decide (t ≤ now)

/-- `cleanup_expired` (lines 123-141) at the instant `now`. -/
def cleanupExpired (m : XudpManager η) (now : ℕ) : XudpManager η × List η :=
  let gone := m.entries.entries.filter fun e => expired now e.2
  (⟨gone.foldl (fun es e => es.erase e.1) m.entries⟩, gone.filterMap fun e => e.2.readerAbort)

end XudpManager

end SkadiCore.Mux
