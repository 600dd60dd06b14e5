import SkadiCore.Common.DuplexLock
import SkadiCore.Mux.Frame
import SkadiCore.Core.Io

/-!
# The upstream of a mux session

The incoming half of a `TcpUpstream` or of a connected `UdpSocket`, as the reader
task of the session reads it (`crates/skadi-transport/src/mux.rs`, lines
600-603 and 629-632). The socket itself stands behind an `Arc<Mutex<_>>` that the
reader task and the main loop share; that is a `DuplexLock Source`.
-/

namespace SkadiCore.Mux

inductive ReadEnd
  | eof
  | error (e : IoError)
  deriving DecidableEq

inductive Source
  | tcp (bytes : Bytes) (fin : Option ReadEnd)
  | udp (datagrams : List Bytes) (failed : Option IoError)
  deriving DecidableEq

namespace Source

def readable : Source → Bool
  | tcp bytes fin => !bytes.isEmpty || fin.isSome
  | udp datagrams failed => !datagrams.isEmpty || failed.isSome

def isTcp : Source → Bool
  | tcp .. => true
  | udp .. => false

/-- A read that returns data: `n` bytes of a TCP stream, at most the 8192 of the
    buffer (line 597), or the next datagram, which fits the buffer (line 626). -/
def readData (src : Source) (n : ℕ) : Option (Bytes × Source) :=
  match src with
  | tcp bytes fin =>
    if 0 < n ∧ n ≤ 8192 ∧ n ≤ bytes.length then some (bytes.take n, tcp (bytes.drop n) fin)
    else none
  | udp (d :: ds) failed => some (d, udp ds failed)
  | udp [] _ => none

def readEnd : Source → Option ReadEnd
  | tcp [] (some .eof) => some .eof
  | tcp _ (some (.error e)) => some (.error e)
  | udp _ (some e) => some (.error e)
  | _ => none

def arrive (src : Source) (data : Bytes) : Source :=
  match src with
  | tcp bytes none => tcp (bytes ++ data) none
  | tcp bytes (some fin) => tcp bytes (some fin)
  | udp datagrams failed => udp (datagrams ++ [data]) failed

def finish (src : Source) (e : ReadEnd) : Source :=
  match src, e with
  | tcp bytes none, e => tcp bytes (some e)
  | udp datagrams none, .error e => udp datagrams (some e)
  | src, _ => src

theorem isTcp_of_large {src src' : Source} {n : ℕ} {chunk : Bytes}
    (h : src.readData n = some (chunk, src')) (hlen : MAX_CHUNK_SIZE < chunk.length) :
    src'.isTcp = false := by
  match src with
  | tcp bytes fin =>
    simp only [readData, Option.ite_none_right_eq_some, Option.some.injEq, Prod.mk.injEq] at h
    obtain ⟨⟨-, hn, -⟩, rfl, -⟩ := h
    rw [List.length_take, MAX_CHUNK_SIZE] at hlen
    omega
  | udp (d :: ds) failed => cases h; rfl

theorem isTcp_readData {src src' : Source} {n : ℕ} {chunk : Bytes}
    (h : src.readData n = some (chunk, src')) : src'.isTcp = src.isTcp := by
  match src with
  | tcp bytes fin =>
    simp only [readData, Option.ite_none_right_eq_some, Option.some.injEq, Prod.mk.injEq] at h
    rw [← h.2.2]; rfl
  | udp (d :: ds) failed => cases h; rfl

@[simp]
theorem isTcp_arrive (src : Source) (data : Bytes) : (src.arrive data).isTcp = src.isTcp := by
  match src with
  | tcp bytes none | tcp bytes (some fin) | udp datagrams failed => rfl

@[simp]
theorem isTcp_finish (src : Source) (e : ReadEnd) : (src.finish e).isTcp = src.isTcp := by
  match src, e with
  | tcp bytes none, e | tcp bytes (some fin), e => rfl
  | udp datagrams none, .error e | udp datagrams none, .eof => rfl
  | udp datagrams (some e'), .error e | udp datagrams (some e'), .eof => rfl

variable {src : Source}

theorem readable_arrive (data : Bytes) (h : src.readable = true) :
    (src.arrive data).readable = true := by
  match src with
  | tcp bytes none => cases bytes <;> simp_all [arrive, readable]
  | tcp bytes (some fin) => simp [arrive, readable]
  | udp datagrams failed => cases datagrams <;> simp [arrive, readable]

theorem readable_finish (e : ReadEnd) (h : src.readable = true) :
    (src.finish e).readable = true := by
  match src, e with
  | tcp bytes none, e => simp [finish, readable]
  | tcp bytes (some fin), e => simp [finish, readable]
  | udp datagrams none, .error e => simp [finish, readable]
  | udp datagrams none, .eof => exact h
  | udp datagrams (some e'), e => cases e <;> exact h

theorem readable_iff :
    src.readable = true ↔ (∃ n r, src.readData n = some r) ∨ ∃ e, src.readEnd = some e := by
  match src with
  | tcp [] none => simp [readable, readData, readEnd]
  | tcp [] (some .eof) => simp [readable, readEnd]
  | tcp [] (some (.error e)) => simp [readable, readEnd]
  | tcp (b :: bs) fin =>
    simp only [readable, List.isEmpty_cons, Bool.not_false, Bool.true_or, true_iff]
    exact .inl ⟨1, ([b], tcp bs fin), by simp [readData]⟩
  | udp [] none => simp [readable, readData, readEnd]
  | udp [] (some e) => simp [readable, readEnd]
  | udp (d :: ds) failed => simp [readable, readData]

end Source

end SkadiCore.Mux
