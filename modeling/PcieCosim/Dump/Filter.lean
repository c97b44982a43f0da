import PcieCosim.Lib.Bytes

/-!
# Which Sockets Are Dumped

The socket filter of `sockdump.py`: `build_filter`, which turns the path given
on the command line into comparisons of 64-bit words, and the part of
`probe_unix_socket_sendmsg` that reads the addresses of the two ends of a
connection into the words compared.

The words are the bytes of the path, padded with zeros, so comparing them is
comparing bytes. What is compared is another matter. The buffer is zeroed once
and filled twice, and an abstract address, whose name comes after a zero byte,
is read one byte short. So the last byte compared is then not the socket's: it
is a zero, or what the first read left there.

For a path that is to match exactly that byte is the terminator, and so it
matches abstract sockets by prefix. For a prefix it is the last byte of the
prefix, and abstract sockets are not matched at all, except for that of a peer
after a first read that happened to leave the right byte.

## Main definitions

* `buildFilter`: The comparisons for a path.
* `probeRead`, `readPath`: Reading an address into the buffer.
* `PathFilter.check`: The comparisons, made on the buffer.
* `probeMatch`: Whether a message is dumped.
* `Names`: An address has the bytes of a filter.
* `PathStarts`, `PathIs`, `AbstractStarts`: What addresses are.

## Theorems

* `check_iff`: Comparing words is comparing bytes.
* `probeMatch_iff`: What a filter matches.
* `isSome_probeMatch`: A filter other than that of `*` has an outcome.
* `filter_exact_iff`: What a path without a star matches.
* `filter_prefix_iff`: What a path with one matches.
-/

namespace PcieCosim

open Bytes

namespace Sockdump

/-- `UNIX_PATH_MAX`. -/
def unixPathMax : Nat := 108

/-- The exceptions of `build_filter`. -/
inductive FilterError where
  /-- Indexing an empty string. -/
  | indexError
  /-- `ValueError('invalid path')`. -/
  | invalidPath
  deriving DecidableEq

/-- What `build_filter` returns. -/
inductive PathFilter where
  /-- `match = 1;`. -/
  | all
  /-- The words to compare, and `path_len`. -/
  | words (pathLen : Nat) (u64s : List (BitVec 64))
  deriving DecidableEq

/-- `*`. -/
def star : Byte := 0x2A

/-- `@`. -/
def atSign : Byte := 0x40

/-- The bytes compared, for the encoding of a path. -/
def filterBytes (sockPath : List Byte) : List Byte :=
  if sockPath.getLast? = some star then sockPath.dropLast
  else if sockPath.head? = some atSign then sockPath.tail ++ [0]
  else sockPath ++ [0]

/-- The bytes as 64-bit words, the last one padded with zeros. -/
def sockPathU64s (bs : List Byte) : List (BitVec 64) :=
  let pathLenU64 := (bs.length + 7) / 8
  let padded := bs ++ List.replicate (pathLenU64 * 8 - bs.length) 0
  (List.range pathLenU64).map (fun i => BitVec.ofNat 64 (leNat (slice padded (i * 8) 8)))

/-- `build_filter`. -/
def buildFilter (sockPath : List Byte) : Except FilterError PathFilter :=
  if sockPath = [] then .error .indexError
  else if (filterBytes sockPath).length > unixPathMax then .error .invalidPath
  else if (filterBytes sockPath).length = 0 then .ok .all
  else .ok (.words (filterBytes sockPath).length (sockPathU64s (filterBytes sockPath)))

/-- The address of a bound socket: the bytes from `sun_path` on, and whatever
    follows them in memory. -/
abbrev Address := Nat → Byte

/-- `bpf_probe_read` of `k` bytes. -/
def probeRead (dst : List Byte) (k : Nat) (src : Nat → Byte) : List Byte :=
  (List.range k).map src ++ dst.drop k

/-- The two branches that read an address. The name of an abstract socket comes
    after a zero and is read with the size `path_len - 1`. For the path `*`,
    which has a `path_len` of 0, that is -1, and there is no outcome. -/
def readPath (pathLen : Nat) (path : List Byte) (addr : Address) : Option (List Byte) :=
  if addr 0 = 0 then
    match pathLen with
    | 0 => none
    | size + 1 => some (probeRead path size (fun i => addr (i + 1)))
  else some (probeRead path pathLen addr)

/-- The comparisons. -/
def PathFilter.check : PathFilter → List Byte → Bool
  | .all, _ => true
  | .words _ u64s, path =>
      u64s.zipIdx.all (fun x => BitVec.ofNat 64 (leNat (slice path (x.2 * 8) 8)) = x.1)

/-- `path_len`. -/
def PathFilter.pathLen : PathFilter → Nat
  | .all => 0
  | .words pathLen _ => pathLen

/-- The buffer `path` as it is declared. -/
def PathFilter.buffer : PathFilter → List Byte
  | .all => List.replicate 8 0
  | .words _ u64s => List.replicate (max u64s.length 1 * 8) 0

/-- The second of the two blocks, for the address of the peer. -/
def PathFilter.matchPeer (flt : PathFilter) (path : List Byte) : Option Address → Option Bool
  | none => some false
  | some addr => (readPath flt.pathLen path addr).map flt.check

/-- The value of `match` for the addresses of the socket and of its peer, where
    a socket need not be bound. -/
def probeMatch (flt : PathFilter) (own peer : Option Address) : Option Bool :=
  let first := match own with
    | none => some flt.buffer
    | some addr => readPath flt.pathLen flt.buffer addr
  first.bind (fun path =>
    if own.isSome && flt.check path then some true else flt.matchPeer path peer)

/-- The buffer before an address is read into it: zeros after the bytes of the
    path, and `stale` in the last place an abstract address does not reach. -/
structure Staged (pathLen : Nat) (stale : Byte) (path : List Byte) : Prop where
  length : path.length = (pathLen + 7) / 8 * 8
  zeros : ∀ k, pathLen ≤ k → k < path.length → path[k]? = some 0
  last : path[pathLen - 1]? = some stale

/-- The address has the bytes of a filter, of which an abstract one has to have
    all but the last. -/
def Names (bs : List Byte) (stale : Byte) (addr : Address) : Prop :=
  if addr 0 = 0 then (∀ i < bs.length - 1, bs[i]? = some (addr (i + 1))) ∧
    bs[bs.length - 1]? = some stale
  else ∀ i < bs.length, bs[i]? = some (addr i)

/-- The last byte of the buffer after reading an address. -/
def staleAfter (pathLen : Nat) : Option Address → Byte
  | none => 0
  | some addr => if addr 0 = 0 then 0 else addr (pathLen - 1)

theorem getElem?_probeRead (dst : List Byte) (k : Nat) (src : Nat → Byte) (i : Nat) :
    (probeRead dst k src)[i]? = if i < k then some (src i) else dst[i]? := by
  have hlen : ((List.range k).map src).length = k := by
    rw [List.length_map, List.length_range]
  unfold probeRead
  by_cases hi : i < k
  · rw [if_pos hi, List.getElem?_append_left (by omega), List.getElem?_map,
      List.getElem?_range hi, Option.map_some]
  · rw [if_neg hi, List.getElem?_append_right (by omega), hlen, List.getElem?_drop,
      show k + (i - k) = i by omega]

theorem length_probeRead (dst : List Byte) (k : Nat) (src : Nat → Byte) (h : k ≤ dst.length) :
    (probeRead dst k src).length = dst.length := by
  rw [probeRead, List.length_append, List.length_map, List.length_range, List.length_drop]
  omega

/-- Lists of whole words are equal if their words are. -/
theorem eq_of_u64s (n : Nat) (xs ys : List Byte) (hxs : xs.length = n * 8)
    (hys : ys.length = n * 8)
    (h : ∀ i < n, BitVec.ofNat 64 (leNat (slice xs (i * 8) 8)) =
      BitVec.ofNat 64 (leNat (slice ys (i * 8) 8))) : xs = ys := by
  refine List.ext_getElem? (fun k => ?_)
  by_cases hk : k < n * 8
  · -- Byte `k` is in word `k / 8`.
    have hi : k / 8 < n := by omega
    have hslice : slice xs (k / 8 * 8) 8 = slice ys (k / 8 * 8) 8 := by
      rw [← word64_ofNat_leNat _ (length_slice xs (k / 8 * 8) 8 (by omega)), h _ hi,
        word64_ofNat_leNat _ (length_slice ys (k / 8 * 8) 8 (by omega))]
    have hbyte := congrArg (fun l => l[k % 8]?) hslice
    simp only [getElem?_slice _ _ 8 (k % 8) (Nat.mod_lt _ (by decide))] at hbyte
    rw [show k / 8 * 8 + k % 8 = k by omega] at hbyte
    exact hbyte
  · rw [List.getElem?_eq_none (by omega), List.getElem?_eq_none (by omega)]

/-- The comparisons of words hold if the buffer is the padded path. -/
theorem check_eq_iff (bs path : List Byte) (hlen : path.length = (bs.length + 7) / 8 * 8) :
    (PathFilter.words bs.length (sockPathU64s bs)).check path = true ↔
      path = bs ++ List.replicate ((bs.length + 7) / 8 * 8 - bs.length) 0 := by
  have hpad : (bs ++ List.replicate ((bs.length + 7) / 8 * 8 - bs.length) (0 : Byte)).length =
      (bs.length + 7) / 8 * 8 := by
    rw [List.length_append, List.length_replicate]
    omega
  simp only [PathFilter.check, List.all_eq_true, decide_eq_true_iff, sockPathU64s]
  constructor
  · intro h
    refine eq_of_u64s _ _ _ hlen hpad (fun i hi => ?_)
    refine h (_, i) (List.mem_zipIdx_iff_getElem?.mpr ?_)
    rw [List.getElem?_map, List.getElem?_range hi, Option.map_some]
    rfl
  · rintro rfl ⟨w, i⟩ hw
    have hget := List.mem_zipIdx_iff_getElem?.mp hw
    rcases List.getElem?_eq_some_iff.mp hget with ⟨hi, hwi⟩
    rw [List.getElem_map, List.getElem_range] at hwi
    exact hwi

/-- Comparing words is comparing bytes, where the buffer ends in zeros. -/
theorem check_iff (bs path : List Byte) (stale : Byte) (h : Staged bs.length stale path) :
    (PathFilter.words bs.length (sockPathU64s bs)).check path = true ↔
      ∀ i < bs.length, bs[i]? = path[i]? := by
  rw [check_eq_iff bs path h.length]
  constructor
  · intro hpath i hi
    rw [hpath, List.getElem?_append_left hi]
  · intro hbytes
    refine List.ext_getElem? (fun k => ?_)
    by_cases hk : k < bs.length
    · rw [List.getElem?_append_left hk, hbytes k hk]
    · rw [List.getElem?_append_right (by omega)]
      by_cases hend : k < path.length
      · have hlen := h.length
        rw [h.zeros k (by omega) hend, List.getElem?_replicate_of_lt (by omega)]
      · have hlen := h.length
        rw [List.getElem?_eq_none (by omega), List.getElem?_eq_none (by
          rw [List.length_replicate]; omega)]

theorem staged_buffer (bs : List Byte) (hpos : 0 < bs.length) :
    Staged bs.length 0 (PathFilter.words bs.length (sockPathU64s bs)).buffer := by
  have hwords : (sockPathU64s bs).length = (bs.length + 7) / 8 := by
    simp only [sockPathU64s, List.length_map, List.length_range]
  have hmax : max (sockPathU64s bs).length 1 = (bs.length + 7) / 8 := by
    rw [hwords]
    omega
  have hlen : (PathFilter.words bs.length (sockPathU64s bs)).buffer =
      List.replicate ((bs.length + 7) / 8 * 8) 0 := by
    rw [PathFilter.buffer, hmax]
  rw [hlen]
  refine ⟨List.length_replicate, fun k _ hk => ?_, ?_⟩
  · rw [List.length_replicate] at hk
    rw [List.getElem?_replicate_of_lt hk]
  · rw [List.getElem?_replicate_of_lt (by omega)]

/-- An address read into the buffer. -/
theorem readPath_eq (pathLen : Nat) (path : List Byte) (addr : Address) (hpos : 0 < pathLen)
    (hle : pathLen ≤ path.length) :
    ∃ path', readPath pathLen path addr = some path' ∧ path'.length = path.length ∧
      ∀ i, path'[i]? =
        if addr 0 = 0 then (if i < pathLen - 1 then some (addr (i + 1)) else path[i]?)
        else if i < pathLen then some (addr i) else path[i]? := by
  unfold readPath
  by_cases habs : addr 0 = 0
  · cases pathLen with
    | zero => exact absurd hpos (Nat.lt_irrefl 0)
    | succ size =>
        simp only [if_pos habs]
        exact ⟨_, rfl, length_probeRead _ _ _ (by omega), getElem?_probeRead path size _⟩
  · simp only [if_neg habs]
    exact ⟨_, rfl, length_probeRead _ _ _ hle, getElem?_probeRead path pathLen addr⟩

/-- Reading an address leaves the buffer ready for the next, and the addresses
    that pass the comparisons are those with the bytes of the filter. -/
theorem staged_read (bs : List Byte) (stale : Byte) (path : List Byte) (addr : Address)
    (hpos : 0 < bs.length) (h : Staged bs.length stale path) :
    ∃ path', readPath bs.length path addr = some path' ∧
      Staged bs.length (if addr 0 = 0 then stale else addr (bs.length - 1)) path' ∧
      ((PathFilter.words bs.length (sockPathU64s bs)).check path' = true ↔
        Names bs stale addr) := by
  have hle : bs.length ≤ path.length := by
    have hlen := h.length
    omega
  rcases readPath_eq bs.length path addr hpos hle with ⟨path', hread, hlen, hget⟩
  have hstaged : Staged bs.length (if addr 0 = 0 then stale else addr (bs.length - 1)) path' := by
    refine ⟨hlen.trans h.length, fun k hk hlt => ?_, ?_⟩
    · rw [hlen] at hlt
      simp only [hget, show ¬ k < bs.length - 1 by omega, show ¬ k < bs.length by omega,
        if_false, ite_self, h.zeros k hk hlt]
    · simp only [hget, Nat.lt_irrefl, show bs.length - 1 < bs.length by omega, if_false,
        if_true, h.last]
      split <;> rfl
  refine ⟨path', hread, hstaged, ?_⟩
  rw [check_iff bs _ _ hstaged]
  unfold Names
  by_cases habs : addr 0 = 0
  · simp only [hget, if_pos habs]
    constructor
    · intro hall
      refine ⟨fun i hi => ?_, ?_⟩
      · rw [hall i (by omega), if_pos hi]
      · rw [hall _ (by omega), if_neg (by omega), h.last]
    · rintro ⟨hinit, hlast⟩ i hi
      by_cases hlt : i < bs.length - 1
      · rw [if_pos hlt, hinit i hlt]
      · rw [if_neg hlt, show i = bs.length - 1 by omega, hlast, h.last]
  · simp only [hget, if_neg habs]
    refine forall₂_congr (fun i hi => ?_)
    rw [if_pos hi]

/-- The second block, on what the first has left in the buffer. -/
theorem matchPeer_iff (bs path : List Byte) (stale : Byte) (hpos : 0 < bs.length)
    (h : Staged bs.length stale path) (peer : Option Address) :
    (PathFilter.words bs.length (sockPathU64s bs)).matchPeer path peer = some true ↔
      ∃ addr, peer = some addr ∧ Names bs stale addr := by
  cases peer with
  | none =>
      simp only [PathFilter.matchPeer, Option.some.injEq, Bool.false_eq_true, reduceCtorEq,
        false_and, exists_false]
  | some addr =>
      rcases staged_read bs stale path addr hpos h with ⟨path', hread, -, hcheck⟩
      simp only [PathFilter.matchPeer, PathFilter.pathLen, hread, Option.map_some,
        Option.some.injEq, hcheck, exists_eq_left']

/-- What a filter matches: the socket's own address, or that of its peer with
    the byte the first read has left. -/
theorem probeMatch_iff (bs : List Byte) (hpos : 0 < bs.length) (own peer : Option Address) :
    probeMatch (.words bs.length (sockPathU64s bs)) own peer = some true ↔
      (∃ addr, own = some addr ∧ Names bs 0 addr) ∨
        ∃ addr, peer = some addr ∧ Names bs (staleAfter bs.length own) addr := by
  have hbuffer := staged_buffer bs hpos
  cases own with
  | none =>
      have hpeer := matchPeer_iff bs _ 0 hpos hbuffer peer
      simp only [probeMatch, Option.bind_some, Option.isSome_none, Bool.false_and,
        Bool.false_eq_true, if_false, reduceCtorEq, false_and, exists_false, false_or]
      exact hpeer
  | some a =>
      rcases staged_read bs 0 _ a hpos hbuffer with ⟨path, hread, hstaged, hcheck⟩
      have hpeer := matchPeer_iff bs path _ hpos hstaged peer
      simp only [probeMatch, PathFilter.pathLen, hread, Option.bind_some, Option.isSome_some,
        Bool.true_and, Option.some.injEq, exists_eq_left']
      by_cases hown : Names bs 0 a
      · rw [if_pos (hcheck.mpr hown)]
        exact ⟨fun _ => Or.inl hown, fun _ => rfl⟩
      · rw [if_neg (fun h => hown (hcheck.mp h))]
        exact hpeer.trans (or_iff_right hown).symm

/-- A filter with a `path_len` has an outcome. -/
theorem isSome_probeMatch (flt : PathFilter) (hpos : 0 < flt.pathLen) (own peer : Option Address) :
    (probeMatch flt own peer).isSome = true := by
  have hread : ∀ path addr, ∃ path', readPath flt.pathLen path addr = some path' := by
    intro path addr
    unfold readPath
    cases hlen : flt.pathLen with
    | zero => omega
    | succ size =>
        simp only
        split <;> exact ⟨_, rfl⟩
  have hpeer : ∀ path, (flt.matchPeer path peer).isSome = true := by
    intro path
    cases peer with
    | none => rfl
    | some addr =>
        rcases hread path addr with ⟨path', hpath⟩
        simp only [PathFilter.matchPeer, hpath, Option.map_some, Option.isSome_some]
  cases own with
  | none => exact hpeer flt.buffer
  | some a =>
      rcases hread flt.buffer a with ⟨path, hpath⟩
      simp only [probeMatch, hpath, Option.bind_some, Option.isSome_some, Bool.true_and]
      split
      · rfl
      · exact hpeer path

/-- The memory at an address begins with the given bytes. -/
def Starts (q : List Byte) (mem : Nat → Byte) : Prop := ∀ i < q.length, q[i]? = some (mem i)

/-- The address is a path that begins with the given bytes. -/
def PathStarts (q : List Byte) (addr : Address) : Prop := addr 0 ≠ 0 ∧ Starts q addr

/-- The address is the given path. -/
def PathIs (q : List Byte) (addr : Address) : Prop := PathStarts q addr ∧ addr q.length = 0

/-- The address is abstract, and its name begins with the given bytes. -/
def AbstractStarts (q : List Byte) (addr : Address) : Prop :=
  addr 0 = 0 ∧ Starts q (fun i => addr (i + 1))

theorem names_terminated (q : List Byte) (stale : Byte) (addr : Address) :
    Names (q ++ [0]) stale addr ↔ PathIs q addr ∨ (AbstractStarts q addr ∧ stale = 0) := by
  have hlen : (q ++ [(0 : Byte)]).length = q.length + 1 := List.length_append
  have hlast : (q ++ [(0 : Byte)])[q.length]? = some 0 := List.getElem?_concat_length
  have hinit : ∀ i < q.length, (q ++ [(0 : Byte)])[i]? = q[i]? :=
    fun i hi => List.getElem?_append_left hi
  unfold Names PathIs PathStarts AbstractStarts Starts
  rw [hlen, Nat.add_sub_cancel, hlast]
  by_cases habs : addr 0 = 0
  · rw [if_pos habs]
    simp only [habs, ne_eq, not_true_eq_false, false_and, false_or, true_and, Option.some.injEq]
    refine and_congr (forall₂_congr (fun i hi => ?_)) eq_comm
    rw [hinit i hi]
  · rw [if_neg habs]
    simp only [habs, ne_eq, not_false_eq_true, true_and, false_and, or_false]
    constructor
    · intro h
      refine ⟨fun i hi => ?_, ?_⟩
      · rw [← hinit i hi, h i (by omega)]
      · have hend := h q.length (by omega)
        rw [hlast, Option.some.injEq] at hend
        exact hend.symm
    · rintro ⟨hstart, hend⟩ i hi
      by_cases hlt : i < q.length
      · rw [hinit i hlt, hstart i hlt]
      · rw [show i = q.length by omega, hlast, hend]

theorem names_unterminated (q : List Byte) (stale : Byte) (addr : Address) :
    Names q stale addr ↔
      PathStarts q addr ∨ (AbstractStarts q.dropLast addr ∧ q.getLast? = some stale) := by
  have hlen : q.dropLast.length = q.length - 1 := List.length_dropLast
  have hinit : ∀ i < q.length - 1, q.dropLast[i]? = q[i]? := by
    intro i hi
    rw [List.dropLast_eq_take, List.getElem?_take_of_lt hi]
  unfold Names PathStarts AbstractStarts Starts
  rw [hlen, List.getLast?_eq_getElem?]
  by_cases habs : addr 0 = 0
  · rw [if_pos habs]
    simp only [habs, ne_eq, not_true_eq_false, false_and, false_or, true_and]
    refine and_congr (forall₂_congr (fun i hi => ?_)) Iff.rfl
    rw [hinit i hi]
  · rw [if_neg habs]
    simp only [habs, ne_eq, not_false_eq_true, true_and, false_and, or_false]

/-- The filter that `build_filter` returns. -/
theorem buildFilter_words (sockPath : List Byte) (flt : PathFilter)
    (hpos : 0 < (filterBytes sockPath).length) (h : buildFilter sockPath = .ok flt) :
    flt = .words (filterBytes sockPath).length (sockPathU64s (filterBytes sockPath)) := by
  unfold buildFilter at h
  split at h
  · simp only [reduceCtorEq] at h
  · split at h
    · simp only [reduceCtorEq] at h
    · rw [if_neg (by omega), Except.ok.injEq] at h
      exact h.symm

/-- What a path without a star matches, where a leading `@` does not count. It
    matches a socket that has the path as its own, or as its peer's. It also
    matches an abstract one whose name only begins with it, unless that is the
    peer's and the socket's own is a path that leaves a nonzero byte in the place
    of the terminator: a longer one, or a shorter one with such a byte in the
    memory behind it. -/
theorem filter_exact_iff (sockPath name : List Byte) (flt : PathFilter)
    (hstar : sockPath.getLast? ≠ some star)
    (hname : name = if sockPath.head? = some atSign then sockPath.tail else sockPath)
    (hflt : buildFilter sockPath = .ok flt) (own peer : Option Address) :
    probeMatch flt own peer = some true ↔
      (∃ addr, own = some addr ∧ (PathIs name addr ∨ AbstractStarts name addr)) ∨
        ∃ addr, peer = some addr ∧ (PathIs name addr ∨
          (AbstractStarts name addr ∧ ∀ o, own = some o → o 0 ≠ 0 → o name.length = 0)) := by
  have hbytes : filterBytes sockPath = name ++ [0] := by
    rw [filterBytes, if_neg hstar, hname]
    split <;> rfl
  have hlen : (name ++ [(0 : Byte)]).length = name.length + 1 := List.length_append
  have hstale : staleAfter (name ++ [(0 : Byte)]).length own = 0 ↔
      ∀ o, own = some o → o 0 ≠ 0 → o name.length = 0 := by
    rw [hlen]
    cases own with
    | none => simp only [staleAfter, reduceCtorEq, false_implies, implies_true]
    | some o =>
        simp only [staleAfter, Nat.add_sub_cancel, Option.some.injEq, forall_eq']
        by_cases habs : o 0 = 0
        · simp only [habs, if_true, ne_eq, not_true_eq_false, false_implies]
        · simp only [habs, if_false, ne_eq, not_false_eq_true, true_implies]
  rw [buildFilter_words sockPath flt (by rw [hbytes, hlen]; omega) hflt, hbytes,
    probeMatch_iff _ (by rw [hlen]; omega)]
  simp only [names_terminated, and_true, hstale]

/-- `@foo` matches the abstract socket `foobar`. -/
theorem filter_exact_longer :
    ∃ flt, buildFilter [0x40, 0x66, 0x6F, 0x6F] = .ok flt ∧
      probeMatch flt (some (fun i => [0, 0x66, 0x6F, 0x6F, 0x62, 0x61, 0x72].getD i 0)) none =
        some true := by
  refine ⟨_, rfl, (filter_exact_iff [0x40, 0x66, 0x6F, 0x6F] [0x66, 0x6F, 0x6F] _ (by decide) rfl
    rfl _ _).mpr (Or.inl ⟨_, rfl, Or.inr ⟨rfl, ?_⟩⟩)⟩
  unfold Starts
  decide

/-- What a path with a star matches, for arguments without zero bytes: a socket
    that has a path which begins with it as its own, or as its peer's. Of
    abstract sockets it matches that of a peer alone, if the socket's own path
    has the last byte of the prefix in its place. -/
theorem filter_prefix_iff (q : List Byte) (flt : PathFilter) (hq : q ≠ []) (hzero : 0 ∉ q)
    (hflt : buildFilter (q ++ [star]) = .ok flt) (own peer : Option Address) :
    probeMatch flt own peer = some true ↔
      (∃ addr, own = some addr ∧ PathStarts q addr) ∨
        (∃ addr, peer = some addr ∧ PathStarts q addr) ∨
        ∃ addr o, peer = some addr ∧ own = some o ∧ o 0 ≠ 0 ∧ AbstractStarts q.dropLast addr ∧
          q.getLast? = some (o (q.length - 1)) := by
  have hpos : 0 < q.length := List.length_pos_iff.mpr hq
  have hbytes : filterBytes (q ++ [star]) = q := by
    rw [filterBytes, List.getLast?_concat, if_pos rfl, List.dropLast_concat]
  have hlast : ¬ q.getLast? = some 0 := fun h => hzero (List.mem_of_getLast? h)
  rw [buildFilter_words _ flt (by rw [hbytes]; exact hpos) hflt, hbytes, probeMatch_iff q hpos]
  simp only [names_unterminated q, hlast, and_false, or_false]
  refine or_congr Iff.rfl ?_
  constructor
  · rintro ⟨addr, hpeer, hpath | ⟨habs, hbyte⟩⟩
    · exact Or.inl ⟨addr, hpeer, hpath⟩
    · -- The byte is no zero, so the first read was that of a path.
      cases own with
      | none => exact absurd hbyte hlast
      | some o =>
          by_cases ho : o 0 = 0
          · rw [staleAfter, if_pos ho] at hbyte
            exact absurd hbyte hlast
          · rw [staleAfter, if_neg ho] at hbyte
            exact Or.inr ⟨addr, o, hpeer, rfl, ho, habs, hbyte⟩
  · rintro (⟨addr, hpeer, hpath⟩ | ⟨addr, o, hpeer, rfl, ho, habs, hbyte⟩)
    · exact ⟨addr, hpeer, Or.inl hpath⟩
    · refine ⟨addr, hpeer, Or.inr ⟨habs, ?_⟩⟩
      rw [staleAfter, if_neg ho]
      exact hbyte

/-- `/tmp/q*` matches `/tmp/qemu`. -/
theorem filter_prefix_qemu :
    ∃ flt, buildFilter ([0x2F, 0x74, 0x6D, 0x70, 0x2F, 0x71] ++ [star]) = .ok flt ∧
      probeMatch flt none (some (fun i =>
        [0x2F, 0x74, 0x6D, 0x70, 0x2F, 0x71, 0x65, 0x6D, 0x75].getD i 0)) = some true := by
  refine ⟨_, rfl, (filter_prefix_iff [0x2F, 0x74, 0x6D, 0x70, 0x2F, 0x71] _ (by decide) (by decide)
    rfl _ _).mpr (Or.inr (Or.inl ⟨_, rfl, by decide, ?_⟩))⟩
  unfold Starts
  decide

end Sockdump

end PcieCosim
