import PcieCosim.Driver.Results

/-!
# Concurrent ioctls

Several clients inside `dev_ioctl` at once, on the reference device.

The driver takes no lock, so the accesses of concurrent calls interleave
freely. Two SET_OP1_MATRIX calls can each leave some of their cells, a
GET_RESULT can multiply half a matrix, and it can return cells of two
products. `calls_interfere` has a run of each kind, and no serial order of the
calls explains it.

What keeps calls apart is stated by `Exclusive`, a condition on each access in
the state it is made: nobody writes an operand that another client is in the
middle of writing, nobody asks for the result while an operand is being
written, and nobody makes the device recompute while another client is in the
middle of reading. Under it every run is serializable. A SET takes effect at
its last write and a GET_RESULT at its first read, and `Linearized` says how
the device then differs from the serial one: only in the cells of an operand
that is being written.

## Main definitions

* `MidSet`, `MidGet`: A call in the middle of its accesses.
* `Exclusive`: The condition on an access.
* `Stage`: Where a call is, and what it knows.
* `Linearized`: The concurrent device and the serial one.
* `operands`: What is compared at the end.
* `Mat.Uniform`: A matrix whose cells are all equal.

## Theorems

* `stage_frame`: A call is not disturbed by what it does not use.
* `linearized_access`: The relation after an access, from what it did.
* `linearized_set`, `linearized_opcode`, `linearized_first`,
  `linearized_later`: The accesses of each kind of call.
* `devIoctl_linearization`: Calls take effect at one of their steps.
* `calls_serializable`: Under the condition every run is serializable.
* `uniform_of_serializable`: Serial calls with uniform matrices keep operands
  and results uniform.
* `calls_interfere`: Runs outside the condition that do not.
-/

namespace PcieCosim

open Interaction Transition MatrixMultiplier

/-- A call of the driver in progress. -/
abbrev InCall := Interaction.Running Call Access Word Result

/-- The device and the clients inside the driver. -/
abbrev Clients (κ : Type) := Pool MatrixMultiplier κ Call Access Word Result

/-- The call is in the middle of writing an operand. -/
def MidSet (s : Side) (run : InCall) : Prop :=
  run.call.ioctl = some s.ioctl ∧ 0 < run.made ∧ run.made < 16

/-- The call is in the middle of reading the result. -/
def MidGet (run : InCall) : Prop :=
  run.call.ioctl = some .getResult ∧ 0 < run.made ∧ run.made < 16

instance (s : Side) (run : InCall) : Decidable (MidSet s run) :=
  inferInstanceAs (Decidable (_ ∧ _))

instance (run : InCall) : Decidable (MidGet run) := inferInstanceAs (Decidable (_ ∧ _))

section

variable {κ : Type} [DecidableEq κ]

/-- No other client's call meets the condition. -/
def Clients.NoOther (P : Clients κ) (k : κ) (cond : InCall → Prop) : Prop :=
  ∀ k', k' ≠ k → ∀ run ∈ P.client k', ¬ cond run

/-- An access of client `k` interferes with no other client: if its call sets
    an operand, nobody else is in the middle of setting it; if it asks for the
    result, nobody else is in the middle of setting an operand and, should the
    device have to recompute, nobody else is in the middle of reading. -/
def Exclusive (P : Clients κ) : PoolLabel κ Call → Prop
  | .access k => ∀ run ∈ P.client k,
      (∀ s : Side, run.call.ioctl = some s.ioctl → P.NoOther k (MidSet s)) ∧
      (run.call.ioctl = some .getResult → run.made = 0 →
        (∀ s : Side, P.NoOther k (MidSet s)) ∧
        (P.shared.resultValid = false → P.NoOther k MidGet))
  | _ => True

end

/-- What remains of a SET with the listed cells still to write. -/
def setRest (s : Side) (c : Call) (xs : List (Fin 4 × Fin 4)) : Prog Access Word Result :=
  (writeCells s.base c.user xs).bind (fun _ => .done { ret := 0, copied := none })

/-- What remains of a GET_RESULT with the listed cells still to read. -/
def getRest (c : Call) (xs : List (Fin 4 × Fin 4)) (kbuf : Mat) : Prog Access Word Result :=
  (readCells xs kbuf).bind (copyResult c)

/-- What a GET_RESULT returns that has read the result `a`. -/
def getReturn (c : Call) (a : Mat) : Result :=
  if c.fault then { ret := -efault, copied := none } else { ret := 0, copied := some a }

/-- Where a call is on the device `m`, given its result if it has taken
    effect. -/
inductive Stage (m : MatrixMultiplier) (d : Option Result) (run : InCall) : Prop where
  /-- A call that fails before its first access. -/
  | failed (c : Call) (r : Result) (hserve : ∀ S, serve S c = (S, r)) (hd : d = none)
      (hrun : run = ⟨c, 0, .done r⟩)
  /-- A call that has made all its accesses. -/
  | returning (c : Call) (made : Nat) (r : Result)
      (hmade : ∀ s : Side, c.ioctl = some s.ioctl → made = 16) (hd : d = some r)
      (hrun : run = ⟨c, made, .done r⟩)
  /-- A SET that has written the cells `ys`. -/
  | setting (c : Call) (s : Side) (ys : List (Fin 4 × Fin 4)) (x : Fin 4 × Fin 4)
      (xs : List (Fin 4 × Fin 4)) (hx : c.ioctl = some s.ioctl) (hf : c.fault = false)
      (hcells : cells = ys ++ x :: xs)
      (hwritten : ∀ y ∈ ys, m.operand s y.1 y.2 = c.user y.1 y.2) (hd : d = none)
      (hrun : run = ⟨c, ys.length, setRest s c (x :: xs)⟩)
  /-- A SET_OPCODE before its write. -/
  | opcode (c : Call) (hx : c.ioctl = some .setOpcode) (hf : c.fault = false) (hd : d = none)
      (hrun : run = ⟨c, 0, setOpcode c⟩)
  /-- A GET_RESULT before its first read. -/
  | asking (c : Call) (hx : c.ioctl = some .getResult) (hd : d = none)
      (hrun : run = ⟨c, 0, getRest c cells c.kbuf⟩)
  /-- A GET_RESULT that has read the cells `ys`. -/
  | reading (c : Call) (ys : List (Fin 4 × Fin 4)) (x : Fin 4 × Fin 4)
      (xs : List (Fin 4 × Fin 4)) (kbuf : Mat) (hx : c.ioctl = some .getResult)
      (hcells : cells = ys ++ x :: xs) (hpos : 0 < ys.length)
      (hread : ∀ y ∈ ys, kbuf y.1 y.2 = m.result y.1 y.2)
      (hd : d = some (getReturn c m.result))
      (hrun : run = ⟨c, ys.length, getRest c (x :: xs) kbuf⟩)

theorem length_cells_split (ys : List (Fin 4 × Fin 4)) (x : Fin 4 × Fin 4)
    (xs : List (Fin 4 × Fin 4)) (h : cells = ys ++ x :: xs) : ys.length + xs.length + 1 = 16 := by
  have hlen := congrArg List.length h
  rw [List.length_append, List.length_cons] at hlen
  exact hlen.symm

/-- Only the first cell is at the offset that makes the device recompute. -/
theorem later_ne_first (ys : List (Fin 4 × Fin 4)) (x : Fin 4 × Fin 4)
    (xs : List (Fin 4 × Fin 4)) (h : cells = ys ++ x :: xs) (hpos : 0 < ys.length) :
    x ≠ (0, 0) := by
  rcases cells_eq with ⟨rest, hcells, hfirst, -⟩
  cases ys with
  | nil => exact absurd hpos (Nat.lt_irrefl 0)
  | cons y ys =>
      rw [hcells, List.cons_append, List.cons.injEq] at h
      intro heq
      apply hfirst
      rw [h.2, heq]
      exact List.mem_append_right _ List.mem_cons_self

/-- A call is not disturbed by a step that keeps the operand it is in the
    middle of writing and the result it is in the middle of reading. -/
theorem stage_frame (m m' : MatrixMultiplier) (d : Option Result) (run : InCall)
    (h : Stage m d run)
    (hset : ∀ s : Side, MidSet s run → m'.operand s = m.operand s)
    (hget : MidGet run → m'.result = m.result) : Stage m' d run := by
  cases h with
  | failed c r hserve hd hrun => exact .failed c r hserve hd hrun
  | returning c made r hmade hd hrun => exact .returning c made r hmade hd hrun
  | opcode c hx hf hd hrun => exact .opcode c hx hf hd hrun
  | asking c hx hd hrun => exact .asking c hx hd hrun
  | setting c s ys x xs hx hf hcells hwritten hd hrun =>
      -- A SET that has written a cell is in the middle, so its operand is kept.
      refine .setting c s ys x xs hx hf hcells (fun y hy => ?_) hd hrun
      have hlen := length_cells_split ys x xs hcells
      have hmid : MidSet s run := by
        rw [hrun]
        exact ⟨hx, List.length_pos_of_mem hy, show ys.length < 16 by omega⟩
      rw [hset s hmid]
      exact hwritten y hy
  | reading c ys x xs kbuf hx hcells hpos hread hd hrun =>
      have hlen := length_cells_split ys x xs hcells
      have hmid : MidGet run := by
        rw [hrun]
        exact ⟨hx, hpos, show ys.length < 16 by omega⟩
      refine .reading c ys x xs kbuf hx hcells hpos ?_ ?_ hrun
      · rw [hget hmid]
        exact hread
      · rw [hget hmid]
        exact hd

/-- A call without accesses fails, and would do so in any serial run. -/
theorem stage_of_done (m : MatrixMultiplier) (c : Call) (r : Result) (h : devIoctl c = .done r) :
    Stage m none ⟨c, 0, devIoctl c⟩ := by
  refine .failed c r (fun S => ?_) rfl (by rw [h])
  rw [serve, h]
  rfl

/-- A call before its first access. -/
theorem stage_enter (m : MatrixMultiplier) (c : Call) : Stage m none ⟨c, 0, devIoctl c⟩ := by
  rcases hx : c.ioctl with _ | x
  · exact stage_of_done m c ⟨-einval, none⟩ (by rw [devIoctl, hx])
  · rcases ioctl_cases x with rfl | rfl | ⟨s, rfl⟩
    · have hbody : devIoctl c = setOpcode c := by rw [devIoctl, hx]
      -- `copy_from_user` comes before the write.
      cases hf : c.fault with
      | true => exact stage_of_done m c ⟨-efault, none⟩ (by rw [hbody, setOpcode, hf]; rfl)
      | false => exact .opcode c hx hf rfl (by rw [hbody])
    · exact .asking c hx rfl (by rw [devIoctl, hx]; rfl)
    · have hbody := devIoctl_side c s hx
      cases hf : c.fault with
      | true => exact stage_of_done m c ⟨-efault, none⟩ (by rw [hbody, setMatrix, hf]; rfl)
      | false =>
          rcases cells_eq with ⟨xs, hcells, -, -⟩
          refine .setting c s [] (0, 0) xs hx hf hcells
            (fun y hy => absurd hy List.not_mem_nil) rfl ?_
          rw [hbody, setMatrix, hf, ← hcells]
          rfl

/-- A call that is about to return is not in the middle of writing, and it has
    either taken effect or never will. -/
theorem stage_leave (m : MatrixMultiplier) (d : Option Result) (c : Call) (made : Nat)
    (r : Result) (h : Stage m d ⟨c, made, .done r⟩) :
    (∀ s : Side, ¬ MidSet s ⟨c, made, .done r⟩) ∧
      (d = some r ∨ d = none ∧ ∀ S, serve S c = (S, r)) := by
  cases h with
  | failed c' r' hserve hd hrun =>
      simp only [Interaction.Running.mk.injEq, Prog.done.injEq] at hrun
      rcases hrun with ⟨rfl, rfl, rfl⟩
      exact ⟨fun s hmid => absurd hmid.2.1 (Nat.lt_irrefl 0), Or.inr ⟨hd, hserve⟩⟩
  | returning c' made' r' hmade hd hrun =>
      simp only [Interaction.Running.mk.injEq, Prog.done.injEq] at hrun
      rcases hrun with ⟨rfl, rfl, rfl⟩
      refine ⟨fun s hmid => ?_, Or.inl hd⟩
      have hlt : made < 16 := hmid.2.2
      have hall := hmade s hmid.1
      omega
  | setting c' s ys x xs _ _ _ _ _ hrun => cases (Interaction.Running.mk.inj hrun).2.2
  | opcode c' _ hf _ hrun =>
      have hrest := (Interaction.Running.mk.inj hrun).2.2
      rw [setOpcode, hf] at hrest
      cases hrest
  | asking c' _ _ hrun =>
      rcases cells_eq with ⟨xs, hcells, -, -⟩
      rw [hcells] at hrun
      cases (Interaction.Running.mk.inj hrun).2.2
  | reading c' ys x xs kbuf _ _ _ _ _ hrun => cases (Interaction.Running.mk.inj hrun).2.2

/-- One more assigned cell. -/
theorem assigned_concat (a g : Mat) (ys : List (Fin 4 × Fin 4)) (x : Fin 4 × Fin 4)
    (h : ∀ y ∈ ys, a y.1 y.2 = g y.1 y.2) :
    ∀ y ∈ ys ++ [x], (a.set x (g x.1 x.2)) y.1 y.2 = g y.1 y.2 := by
  intro y hy
  unfold Mat.set
  by_cases hyx : (y.1, y.2) = x
  · rw [if_pos hyx, ← hyx]
  · rw [if_neg hyx]
    rcases List.mem_append.mp hy with hold | hnew
    · exact h y hold
    · exact absurd (List.mem_singleton.mp hnew) hyx

/-- The last assigned cell. -/
theorem assigned_all (a g : Mat) (ys : List (Fin 4 × Fin 4)) (x : Fin 4 × Fin 4)
    (h : ∀ y ∈ ys, a y.1 y.2 = g y.1 y.2) (hcells : cells = ys ++ [x]) :
    a.set x (g x.1 x.2) = g := by
  funext i j
  have hmem := mem_cells i j
  rw [hcells] at hmem
  exact assigned_concat a g ys x h (i, j) hmem

theorem operand_withOperand_ne (m : MatrixMultiplier) (s s' : Side) (a : Mat) (h : s' ≠ s) :
    (m.withOperand s a).operand s' = m.operand s' := by
  cases s <;> cases s' <;> first | rfl | exact absurd rfl h

/-- Writing an operand touches neither the opcode nor the result, which it
    marks invalid. -/
theorem withOperand_frame (m : MatrixMultiplier) (s : Side) (a : Mat) :
    (m.withOperand s a).opcode = m.opcode ∧ (m.withOperand s a).result = m.result ∧
      (m.withOperand s a).resultValid = false := by
  cases s <;> exact ⟨rfl, rfl, rfl⟩

theorem operand_refreshed (m : MatrixMultiplier) (s : Side) :
    m.refreshed.operand s = m.operand s := by
  rcases refreshed_frame m with ⟨h1, h2, -⟩
  cases s with
  | op1 => exact h1
  | op2 => exact h2

/-- The product depends on the operands and the opcode only. -/
theorem product_congr (m m' : MatrixMultiplier) (hop : ∀ s, m.operand s = m'.operand s)
    (hopcode : m.opcode = m'.opcode) : m.product = m'.product := by
  have h1 : m.op1 = m'.op1 := hop .op1
  have h2 : m.op2 = m'.op2 := hop .op2
  rw [product, product, h1, h2, hopcode]

theorem serve_side (S : MatrixMultiplier) (c : Call) (s : Side) (hx : c.ioctl = some s.ioctl)
    (hf : c.fault = false) : serve S c = (S.withOperand s c.user, ⟨0, none⟩) := by
  rw [serve_eq, hx, hf]
  cases s <;> rfl

theorem serve_get (S : MatrixMultiplier) (c : Call) (hx : c.ioctl = some .getResult) :
    serve S c = (S.refreshed, getReturn c S.refreshed.result) := by
  rw [serve_eq, hx]
  rfl

theorem getRest_nil (c : Call) (a : Mat) : getRest c [] a = .done (getReturn c a) := by
  change copyResult c a = _
  unfold copyResult getReturn
  cases c.fault <;> rfl

section

variable {κ : Type} [DecidableEq κ]

/-- The concurrent device and a serial one, with the results of the calls in
    progress that have taken effect. They differ only in an operand that is
    being written, and the result is not valid while one is. -/
structure Linearized (P : Clients κ) (S : MatrixMultiplier) (D : κ → Option Result) : Prop where
  stage : ∀ k, ∀ run ∈ P.client k, Stage P.shared (D k) run
  opcode : P.shared.opcode = S.opcode
  operand : ∀ s, (∀ k, ∀ run ∈ P.client k, ¬ MidSet s run) →
    P.shared.operand s = S.operand s
  fresh : P.shared.resultValid = true → ∀ s k, ∀ run ∈ P.client k, ¬ MidSet s run
  coherent : Coherent P.shared
  coherentSerial : Coherent S

/-- Nobody meets the condition if one client does not and no other does. -/
theorem none_of_noOther (P : Clients κ) (k : κ) (cond : InCall → Prop)
    (hk : ∀ run ∈ P.client k, ¬ cond run) (hother : P.NoOther k cond) :
    ∀ k', ∀ run ∈ P.client k', ¬ cond run := by
  intro k'
  by_cases heq : k' = k
  · rw [heq]
    exact hk
  · exact hother k' heq

/-- The relation after a step of client `k` that leaves the device `m'` and
    the client at `x`, from what the step did. The other clients are not
    disturbed: whatever they are in the middle of is kept. -/
theorem linearized_update (P : Clients κ) (S S' m' : MatrixMultiplier) (D D' : κ → Option Result)
    (k : κ) (x : Option InCall) (h : Linearized P S D) (hD : ∀ k', k' ≠ k → D' k' = D k')
    (hstage : ∀ run ∈ x, Stage m' (D' k) run)
    (hset : ∀ s, P.NoOther k (MidSet s) ∨ m'.operand s = P.shared.operand s)
    (hget : P.NoOther k MidGet ∨ m'.result = P.shared.result)
    (hopcode : m'.opcode = S'.opcode)
    (hoperand : ∀ s, (∀ run ∈ x, ¬ MidSet s run) → P.NoOther k (MidSet s) →
      m'.operand s = S'.operand s)
    (hfresh : m'.resultValid = true →
      ∀ s, (∀ run ∈ x, ¬ MidSet s run) ∧ P.NoOther k (MidSet s))
    (hcoh : Coherent m') (hcohS : Coherent S') :
    Linearized ⟨m', Function.update P.client k x⟩ S' D' := by
  have hself : (⟨m', Function.update P.client k x⟩ : Clients κ).client k = x :=
    Function.update_self k x P.client
  have hother : ∀ k', k' ≠ k →
      (⟨m', Function.update P.client k x⟩ : Clients κ).client k' = P.client k' :=
    fun k' hne => Function.update_of_ne hne x P.client
  refine ⟨fun k' run hrun => ?_, hopcode, fun s hnone => ?_, fun hvalid s k' run hrun => ?_,
    hcoh, hcohS⟩
  -- The client itself is where the step left it, and any other call is
  -- framed by what the step kept.
  · by_cases heq : k' = k
    · subst heq
      rw [hself] at hrun
      exact hstage run hrun
    · rw [hother k' heq] at hrun
      rw [hD k' heq]
      refine stage_frame P.shared m' (D k') run (h.stage k' run hrun) (fun s hmid => ?_)
        (fun hmid => ?_)
      · exact (hset s).elim (fun hno => absurd hmid (hno k' heq run hrun)) id
      · exact hget.elim (fun hno => absurd hmid (hno k' heq run hrun)) id
  · refine hoperand s (fun run hrun => ?_) (fun k' hne run hrun => ?_)
    · exact hnone k run (by rw [hself]; exact hrun)
    · exact hnone k' run (by rw [hother k' hne]; exact hrun)
  · by_cases heq : k' = k
    · subst heq
      rw [hself] at hrun
      exact (hfresh hvalid s).1 run hrun
    · rw [hother k' heq] at hrun
      exact (hfresh hvalid s).2 k' heq run hrun

/-- A step that does not touch the devices: entering, leaving, and reading a
    later cell. -/
theorem linearized_idle (P : Clients κ) (S : MatrixMultiplier) (D D' : κ → Option Result)
    (k : κ) (x : Option InCall) (h : Linearized P S D) (hD : ∀ k', k' ≠ k → D' k' = D k')
    (hstage : ∀ run ∈ x, Stage P.shared (D' k) run)
    (hbefore : ∀ s, ∀ run ∈ P.client k, ¬ MidSet s run)
    (hafter : ∀ s, ∀ run ∈ x, ¬ MidSet s run) :
    Linearized ⟨P.shared, Function.update P.client k x⟩ S D' :=
  linearized_update P S S P.shared D D' k x h hD hstage (fun _ => Or.inr rfl) (Or.inr rfl)
    h.opcode
    (fun s _ hother => h.operand s (none_of_noOther P k _ (hbefore s) hother))
    (fun hvalid s => ⟨hafter s, fun k' _ => h.fresh hvalid s k'⟩) h.coherent h.coherentSerial

/-- A write to an operand that no other client is setting. The serial device
    keeps the other operand, and has this one as well unless the client is now
    in the middle of setting it. -/
theorem linearized_write (P : Clients κ) (S S' : MatrixMultiplier) (D D' : κ → Option Result)
    (k : κ) (s : Side) (a : Mat) (run : InCall) (h : Linearized P S D)
    (hD : ∀ k', k' ≠ k → D' k' = D k')
    (hk : ∀ run ∈ P.client k, run.call.ioctl = some s.ioctl)
    (hother : P.NoOther k (MidSet s)) (hstage : Stage (P.shared.withOperand s a) (D' k) run)
    (hopcode : S.opcode = S'.opcode) (hown : ¬ MidSet s run → a = S'.operand s)
    (hrest : ∀ s', s' ≠ s → S'.operand s' = S.operand s') (hcoh : Coherent S') :
    Linearized ⟨P.shared.withOperand s a, Function.update P.client k (some run)⟩ S' D' := by
  rcases withOperand_frame P.shared s a with ⟨hop, hresult, hvalid⟩
  refine linearized_update P S S' _ D D' k (some run) h hD ?_ (fun s' => ?_) (Or.inr hresult)
    (hop.trans (h.opcode.trans hopcode)) (fun s' hnone hno => ?_) (fun hv => ?_)
    (coherent_withOperand _ _ _) hcoh
  · intro run' hrun
    rw [Option.mem_some_iff] at hrun
    rw [← hrun]
    exact hstage
  · by_cases heq : s' = s
    · rw [heq]
      exact Or.inl hother
    · exact Or.inr (operand_withOperand_ne P.shared s s' a heq)
  · by_cases heq : s' = s
    · rw [heq, operand_withOperand]
      rw [heq] at hnone
      exact hown (hnone run (Option.mem_some_iff.mpr rfl))
    · rw [operand_withOperand_ne _ _ _ _ heq, hrest s' heq]
      -- A call that sets one operand is never in the middle of the other.
      refine h.operand s' (none_of_noOther P k _ (fun run' hrun hmid => ?_) hno)
      exact heq (side_ioctl_injective s' s (hmid.1.symm.trans (hk run' hrun)))
  · rw [hvalid] at hv
    exact nomatch hv

/-- One write of a SET: the call takes effect with the last one. -/
theorem linearized_set (P : Clients κ) (S : MatrixMultiplier) (D : κ → Option Result) (k : κ)
    (c : Call) (s : Side) (ys : List (Fin 4 × Fin 4)) (x : Fin 4 × Fin 4)
    (xs : List (Fin 4 × Fin 4)) (h : Linearized P S D) (hx : c.ioctl = some s.ioctl)
    (hf : c.fault = false) (hcells : cells = ys ++ x :: xs)
    (hwritten : ∀ y ∈ ys, P.shared.operand s y.1 y.2 = c.user y.1 y.2) (hd : D k = none)
    (hk : ∀ run ∈ P.client k, run.call = c) (hother : P.NoOther k (MidSet s)) :
    let P' := P.makeAccess handler k c ys.length
      (.iowrite32 (c.user x.1 x.2) (cellOffset s.base x)) (fun _ => setRest s c xs)
    Linearized P' S D ∨ (D k = none ∧ Linearized P' (serve S c).1
      (Function.update D k (some (serve S c).2))) := by
  intro P'
  have hlen := length_cells_split ys x xs hcells
  have hcall : ∀ run ∈ P.client k, run.call.ioctl = some s.ioctl := fun run hrun => by
    rw [hk run hrun]
    exact hx
  change Linearized ⟨(handler P.shared _).1, _⟩ _ _ ∨
    (D k = none ∧ Linearized ⟨(handler P.shared _).1, _⟩ _ _)
  rw [handler_side P.shared s (c.user x.1 x.2) x]
  cases xs with
  | nil =>
      -- The last cell: the operand is the caller's matrix.
      refine Or.inr ⟨hd, ?_⟩
      rw [serve_side S c s hx hf]
      refine linearized_write P S _ D _ k s _ _ h (fun k' hne => Function.update_of_ne hne _ _)
        hcall hother ?_ (withOperand_frame S s c.user).1.symm (fun _ => ?_)
        (fun s' hne => operand_withOperand_ne S s s' c.user hne) (coherent_withOperand _ _ _)
      · rw [Function.update_self]
        exact .returning c (ys.length + 1) ⟨0, none⟩ (fun _ _ => hlen) rfl rfl
      · rw [operand_withOperand]
        exact assigned_all (P.shared.operand s) c.user ys x hwritten hcells
  | cons x' xs =>
      rw [List.length_cons] at hlen
      refine Or.inl (linearized_write P S S D D k s _ _ h (fun _ _ => rfl) hcall hother ?_ rfl
        (fun hnot => ?_) (fun _ _ => rfl) h.coherentSerial)
      · refine .setting c s (ys ++ [x]) x' xs hx hf ?_ ?_ hd ?_
        · rw [hcells, List.append_assoc, List.singleton_append]
        · rw [operand_withOperand]
          exact assigned_concat (P.shared.operand s) c.user ys x hwritten
        · rw [List.length_append]
          rfl
      · exact absurd ⟨hx, Nat.succ_pos _, show ys.length + 1 < 16 by omega⟩ hnot

/-- A call of another command is not in the middle of writing an operand. -/
theorem not_midSet (run : InCall) (x : Ioctl) (hx : run.call.ioctl = some x)
    (hne : ∀ s : Side, x ≠ s.ioctl) (s : Side) : ¬ MidSet s run := by
  intro hmid
  exact hne s (Option.some.inj (hx.symm.trans hmid.1))

/-- The write of a SET_OPCODE, at which the call takes effect. -/
theorem linearized_opcode (P : Clients κ) (S : MatrixMultiplier) (D : κ → Option Result) (k : κ)
    (c : Call) (h : Linearized P S D) (hx : c.ioctl = some .setOpcode) (hf : c.fault = false)
    (hk : ∀ run ∈ P.client k, run.call = c) :
    Linearized (P.makeAccess handler k c 0 (.iowrite32 (c.user 0 0) 0x90)
        (fun _ => .done ⟨0, none⟩)) (serve S c).1
      (Function.update D k (some (serve S c).2)) := by
  have hserve : serve S c = (S.withOpcode (c.user 0 0), ⟨0, none⟩) := by
    rw [serve_eq, hx, hf]
    rfl
  rw [hserve]
  change Linearized ⟨(handler P.shared _).1, _⟩ _ _
  rw [handler_opcode]
  have hbefore : ∀ s, ∀ run ∈ P.client k, ¬ MidSet s run := fun s run hrun =>
    not_midSet run .setOpcode (by rw [hk run hrun]; exact hx) setOpcode_ne_side s
  refine linearized_update P S _ _ D _ k _ h (fun k' hne => Function.update_of_ne hne _ _) ?_
    (fun s => Or.inr ?_) (Or.inr rfl) rfl (fun s _ hno => ?_) nofun nofun nofun
  · intro run hrun
    rw [Option.mem_some_iff] at hrun
    rw [Function.update_self]
    refine .returning c 1 ⟨0, none⟩ (fun s hs => ?_) rfl hrun.symm
    exact absurd (Option.some.inj (hx.symm.trans hs)) (setOpcode_ne_side s)
  · cases s <;> rfl
  · have heq := h.operand s (none_of_noOther P k _ (hbefore s) hno)
    cases s with
    | op1 => exact heq
    | op2 => exact heq

/-- The first read of a GET_RESULT, at which the call takes effect. -/
theorem linearized_first (P : Clients κ) (S : MatrixMultiplier) (D : κ → Option Result) (k : κ)
    (c : Call) (xs : List (Fin 4 × Fin 4)) (h : Linearized P S D)
    (hx : c.ioctl = some .getResult) (hcells : cells = (0, 0) :: xs) (hlen : xs.length = 15)
    (hk : ∀ run ∈ P.client k, run.call = c)
    (hset : ∀ s : Side, P.NoOther k (MidSet s))
    (hget : P.shared.resultValid = false → P.NoOther k MidGet) :
    Linearized (P.makeAccess handler k c 0 (.ioread32 (cellOffset 0xA0 (0, 0)))
        (fun w => getRest c xs (c.kbuf.set (0, 0) w))) (serve S c).1
      (Function.update D k (some (serve S c).2)) := by
  have hbefore : ∀ s, ∀ run ∈ P.client k, ¬ MidSet s run := fun s run hrun =>
    not_midSet run .getResult (by rw [hk run hrun]; exact hx) getResult_ne_side s
  -- Nobody is writing an operand, so the two devices compute the same product.
  have hop : ∀ s, P.shared.operand s = S.operand s := fun s =>
    h.operand s (none_of_noOther P k _ (hbefore s) (hset s))
  have hresult : P.shared.refreshed.result = S.refreshed.result := by
    rw [refreshed_result _ h.coherent, refreshed_result _ h.coherentSerial]
    exact product_congr _ _ hop h.opcode
  have hafter : ∀ s, ∀ run ∈ some (⟨c, 0 + 1, getRest c xs (c.kbuf.set (0, 0)
      (P.shared.refreshed.result 0 0))⟩ : InCall), ¬ MidSet s run := by
    intro s run hrun
    rw [Option.mem_some_iff] at hrun
    exact not_midSet run .getResult (by rw [← hrun]; exact hx) getResult_ne_side s
  rw [serve_get S c hx]
  change Linearized ⟨(handler P.shared _).1, Function.update P.client k
    (some ⟨c, 0 + 1, getRest c xs (c.kbuf.set (0, 0) (handler P.shared _).2)⟩)⟩ _ _
  rw [handler_first]
  refine linearized_update P S _ _ D _ k _ h (fun k' hne => Function.update_of_ne hne _ _) ?_
    (fun s => Or.inr (operand_refreshed _ s)) ?_ ?_ (fun s _ _ => ?_)
    (fun _ s => ⟨hafter s, hset s⟩) (coherent_refreshed _ h.coherent)
    (coherent_refreshed _ h.coherentSerial)
  · intro run hrun
    rw [Option.mem_some_iff] at hrun
    rw [Function.update_self]
    cases xs with
    | nil => exact nomatch hlen
    | cons x xs =>
        refine .reading c [(0, 0)] x xs _ hx hcells Nat.one_pos ?_ ?_ hrun.symm
        · exact assigned_concat c.kbuf P.shared.refreshed.result [] (0, 0)
            (fun y hy => absurd hy List.not_mem_nil)
        · rw [hresult]
  · -- A valid result is left as it is; recomputing needs the readers gone.
    cases hv : P.shared.resultValid with
    | false => exact Or.inl (hget hv)
    | true =>
        right
        rw [refreshed, if_neg (by rw [hv]; decide)]
  · rw [(refreshed_frame _).2.2, (refreshed_frame _).2.2, h.opcode]
  · rw [operand_refreshed, operand_refreshed]
    exact hop s

/-- A later read of a GET_RESULT, which finds the result the first one left. -/
theorem linearized_later (P : Clients κ) (S : MatrixMultiplier) (D : κ → Option Result) (k : κ)
    (c : Call) (ys : List (Fin 4 × Fin 4)) (x : Fin 4 × Fin 4) (xs : List (Fin 4 × Fin 4))
    (kbuf : Mat) (h : Linearized P S D) (hx : c.ioctl = some .getResult)
    (hcells : cells = ys ++ x :: xs) (hpos : 0 < ys.length)
    (hread : ∀ y ∈ ys, kbuf y.1 y.2 = P.shared.result y.1 y.2)
    (hd : D k = some (getReturn c P.shared.result)) (hk : ∀ run ∈ P.client k, run.call = c) :
    Linearized (P.makeAccess handler k c ys.length (.ioread32 (cellOffset 0xA0 x))
      (fun w => getRest c xs (kbuf.set x w))) S D := by
  change Linearized ⟨(handler P.shared _).1, Function.update P.client k
    (some ⟨c, ys.length + 1, getRest c xs (kbuf.set x (handler P.shared _).2)⟩)⟩ _ _
  rw [handler_later P.shared x (later_ne_first ys x xs hcells hpos)]
  refine linearized_idle P S D D k _ h (fun _ _ => rfl) ?_ (fun s run hrun => ?_)
    (fun s run hrun => ?_)
  · intro run hrun
    rw [Option.mem_some_iff] at hrun
    cases xs with
    -- The last cell: the buffer is the result the call was promised.
    | nil =>
        rw [getRest_nil, assigned_all kbuf P.shared.result ys x hread hcells] at hrun
        refine .returning c (ys.length + 1) _ (fun s hs => ?_) hd hrun.symm
        exact absurd (Option.some.inj (hx.symm.trans hs)) (getResult_ne_side s)
    | cons x' xs =>
        refine .reading c (ys ++ [x]) x' xs _ hx ?_ ?_
          (assigned_concat kbuf P.shared.result ys x hread) hd ?_
        · rw [hcells, List.append_assoc, List.singleton_append]
        · rw [List.length_append]
          exact Nat.succ_pos _
        · rw [← hrun, List.length_append]
          rfl
  · exact not_midSet run .getResult (by rw [hk run hrun]; exact hx) getResult_ne_side s
  · rw [Option.mem_some_iff] at hrun
    exact not_midSet run .getResult (by rw [← hrun]; exact hx) getResult_ne_side s

/-- An access, by the stage of the call that makes it. -/
theorem linearized_access (P : Clients κ) (S : MatrixMultiplier) (D : κ → Option Result) (k : κ)
    (c : Call) (made : Nat) (i : Access) (next : Word → Prog Access Word Result)
    (h : Linearized P S D) (hcond : Exclusive P (.access k))
    (hk : P.client k = some ⟨c, made, .call i next⟩) :
    Linearized (P.makeAccess handler k c made i next) S D ∨
      (D k = none ∧ Linearized (P.makeAccess handler k c made i next) (serve S c).1
        (Function.update D k (some (serve S c).2))) := by
  have hmem : (⟨c, made, .call i next⟩ : InCall) ∈ P.client k := Option.mem_def.mpr hk
  have hcall : ∀ run ∈ P.client k, run.call = c := by
    intro run hrun
    rw [hk, Option.mem_some_iff] at hrun
    rw [← hrun]
  rcases hcond _ hmem with ⟨hexset, hexget⟩
  cases h.stage k _ hmem with
  | failed c' r _ _ hrun => exact nomatch (Interaction.Running.mk.inj hrun).2.2
  | returning c' made' r _ _ hrun => exact nomatch (Interaction.Running.mk.inj hrun).2.2
  | setting c' s ys x xs hx hf hcells hwritten hd hrun =>
      rcases Interaction.Running.mk.inj hrun with ⟨rfl, rfl, hrest⟩
      rcases Prog.call.inj hrest with ⟨rfl, rfl⟩
      exact linearized_set P S D k c s ys x xs h hx hf hcells hwritten hd hcall (hexset s hx)
  | opcode c' hx hf hd hrun =>
      rcases Interaction.Running.mk.inj hrun with ⟨rfl, rfl, hrest⟩
      rw [setOpcode, hf] at hrest
      rcases Prog.call.inj hrest with ⟨rfl, rfl⟩
      exact Or.inr ⟨hd, linearized_opcode P S D k c h hx hf hcall⟩
  | asking c' hx hd hrun =>
      rcases Interaction.Running.mk.inj hrun with ⟨rfl, rfl, hrest⟩
      rcases cells_eq with ⟨xs, hcells, -, hlen⟩
      rw [hcells] at hrest
      rcases Prog.call.inj hrest with ⟨rfl, rfl⟩
      rcases hexget hx rfl with ⟨hset, hget⟩
      exact Or.inr ⟨hd, linearized_first P S D k c xs h hx hcells hlen hcall hset hget⟩
  | reading c' ys x xs kbuf hx hcells hpos hread hd hrun =>
      rcases Interaction.Running.mk.inj hrun with ⟨rfl, rfl, hrest⟩
      rcases Prog.call.inj hrest with ⟨rfl, rfl⟩
      exact Or.inl (linearized_later P S D k c ys x xs kbuf h hx hcells hpos hread hd hcall)

/-- Calls take effect at one of their steps. -/
theorem devIoctl_linearization :
    Linearization devIoctl handler Exclusive (Linearized (κ := κ)) where
  enter P S D k c h hk hd := by
    -- Entering makes no access, and a call without accesses disturbs nobody.
    refine linearized_idle P S D D k _ h (fun _ _ => rfl) ?_ (fun s run hrun => ?_)
      (fun s run hrun => ?_)
    · intro run hrun
      rw [Option.mem_some_iff] at hrun
      rw [hd, ← hrun]
      exact stage_enter P.shared c
    · rw [hk] at hrun
      exact nomatch hrun
    · rw [Option.mem_some_iff] at hrun
      subst hrun
      exact fun hmid => absurd hmid.2.1 (Nat.lt_irrefl 0)
  access P S D k c made i next h hcond hk := linearized_access P S D k c made i next h hcond hk
  leave P S D k c made r h hk := by
    have hmem : (⟨c, made, .done r⟩ : InCall) ∈ P.client k := Option.mem_def.mpr hk
    rcases stage_leave P.shared (D k) c made r (h.stage k _ hmem) with ⟨hmid, hend⟩
    have hbefore : ∀ s, ∀ run ∈ P.client k, ¬ MidSet s run := by
      intro s run hrun
      rw [hk, Option.mem_some_iff] at hrun
      rw [← hrun]
      exact hmid s
    have hgone : ∀ D' : κ → Option Result, (∀ k', k' ≠ k → D' k' = D k') →
        Linearized (P.setClient k none) S D' := fun D' hD' =>
      linearized_idle P S D D' k none h hD' nofun hbefore nofun
    rcases hend with hd | ⟨hd, hserve⟩
    · exact Or.inl ⟨hd, hgone _ (fun k' hne => Function.update_of_ne hne _ _)⟩
    · refine Or.inr ⟨hd, congrArg Prod.snd (hserve S), ?_⟩
      change Linearized (P.setClient k none) (serve S c).1 D
      rw [hserve S]
      exact hgone D (fun _ _ => rfl)

/-- The operands and the opcode of the device. -/
def operands (m : MatrixMultiplier) : Mat × Mat × Word := (m.op1, m.op2, m.opcode)

/-- The device with no call in progress. -/
def Clients.idle (m : MatrixMultiplier) : Clients κ := { shared := m, client := fun _ => none }

/-- Any number of clients inside the driver at once, on the reference device:
    if no access interferes with another client's call, the operands and the
    opcode at the end and everything returned are those of a serial run of the
    same calls, each client's in its own order. -/
theorem calls_serializable (ls : List (PoolLabel κ Call)) (P : Clients κ)
    (tr : List (Returned κ Call Result))
    (hrun : (pool devIoctl handler).run (Clients.idle initial) ls = some (P, tr))
    (hexcl : (pool devIoctl handler).Along Exclusive (Clients.idle initial) ls)
    (hidle : P.Idle) :
    Serializable devIoctl handler operands initial P.shared tr := by
  -- With no call in progress no operand is being written, so the relation
  -- is equality.
  refine serializable_of_idle devIoctl_linearization operands (fun P S D h hidle => ?_)
    (Clients.idle initial) P ?_ ls hexcl tr hrun hidle
  · have hop : ∀ s, P.shared.operand s = S.operand s := fun s =>
      h.operand s (fun k run hmem => by rw [hidle k] at hmem; exact nomatch hmem)
    exact Prod.ext (hop .op1).symm (Prod.ext (hop .op2).symm h.opcode.symm)
  · exact ⟨fun _ _ hmem => (nomatch hmem), rfl, fun _ _ => rfl, nofun, nofun, nofun⟩

end

instance {κ : Type} [DecidableEq κ] [Fintype κ] (P : Clients κ) (k : κ) (cond : InCall → Prop)
    [DecidablePred cond] : Decidable (P.NoOther k cond) :=
  inferInstanceAs (Decidable (∀ k', k' ≠ k → ∀ run ∈ P.client k', ¬ cond run))

instance {κ : Type} [DecidableEq κ] [Fintype κ] (P : Clients κ) (l : PoolLabel κ Call) :
    Decidable (Exclusive P l) := by
  cases l with
  | enter k c => exact instDecidableTrue
  | leave k => exact instDecidableTrue
  | access k => unfold Exclusive; infer_instance

/-- A client enters a call with a matrix of the given word. -/
def enters (k : Bool) (x : Ioctl) (v : Word) : PoolLabel Bool Call :=
  .enter k (x.callWith (fun _ _ => v))

/-- The next accesses of a client. -/
def accesses (k : Bool) (n : Nat) : List (PoolLabel Bool Call) := List.replicate n (.access k)

/-- Two clients that set an operand each, cell by cell in turn, and then read
    the result in the same way: the first read of one recomputes it, and that of
    the other finds it valid. -/
def alternating : List (PoolLabel Bool Call) :=
  enters false .setOp1Matrix 3 :: enters true .setOp2Matrix 5 ::
    ((List.replicate 16 (accesses false 1 ++ accesses true 1)).flatten ++
      [.leave false, .leave true]) ++
    enters false .setOpcode 1 :: accesses false 1 ++ .leave false ::
    enters false .getResult 0 :: enters true .getResult 0 ::
    ((List.replicate 16 (accesses false 1 ++ accesses true 1)).flatten ++
      [.leave false, .leave true])

/-- Neither disturbs the other. -/
theorem calls_serializable_alternating :
    ∃ P tr, (pool devIoctl handler).run (Clients.idle initial) alternating = some (P, tr) ∧
      Serializable devIoctl handler operands initial P.shared tr := by
  refine ⟨_, _, rfl, calls_serializable alternating _ _ rfl (by decide +kernel) (fun k => ?_)⟩
  cases k <;> rfl

/-- All cells are equal. -/
def Mat.Uniform (a : Mat) : Prop := ∀ i j, a i j = a 0 0

instance (a : Mat) : Decidable a.Uniform := inferInstanceAs (Decidable (∀ i j, a i j = a 0 0))

theorem uniform_product (m : MatrixMultiplier) (h1 : m.op1.Uniform) (h2 : m.op2.Uniform) :
    m.product.Uniform := by
  intro i j
  have hterm : (fun (acc : Word) k => acc + m.op1 i k * m.op2 k j) =
      fun acc k => acc + m.op1 0 k * m.op2 k 0 := by
    funext acc k
    rw [h1 i k, h1 0 k, h2 k j, h2 k 0]
  unfold product
  split
  · rfl
  · exact congrArg (fun f => (List.finRange 4).foldl f 0) hterm

/-- A call with a uniform matrix, alone on a device with uniform operands. -/
theorem uniform_serve (m : MatrixMultiplier) (c : Call) (hcoh : Coherent m)
    (h1 : m.op1.Uniform) (h2 : m.op2.Uniform) (hc : c.user.Uniform) :
    (serve m c).1.op1.Uniform ∧ (serve m c).1.op2.Uniform ∧
      ∀ a, (serve m c).2.copied = some a → a.Uniform := by
  rcases refreshed_frame m with ⟨hr1, hr2, -⟩
  have hserved := served m c
  generalize serve m c = x at hserved
  rcases x with ⟨m', r⟩
  cases hserved with
  | invalid _ => exact ⟨h1, h2, nofun⟩
  | fault _ _ => exact ⟨h1, h2, nofun⟩
  | setMatrix s _ _ =>
      cases s with
      | op1 => exact ⟨hc, h2, nofun⟩
      | op2 => exact ⟨h1, hc, nofun⟩
  | setOpcode _ _ => exact ⟨h1, h2, nofun⟩
  | getFault _ _ => exact ⟨hr1 ▸ h1, hr2 ▸ h2, nofun⟩
  | getResult _ _ =>
      refine ⟨hr1 ▸ h1, hr2 ▸ h2, fun a ha => ?_⟩
      rw [← Option.some.inj ha, refreshed_result m hcoh]
      exact uniform_product m h1 h2

section

variable {κ : Type}

/-- Operands and returned matrices are uniform as long as the calls' are. -/
structure UniformSoFar (m : MatrixMultiplier) (tr : List (Returned κ Call Result)) : Prop where
  coherent : Coherent m
  op1 : m.op1.Uniform
  op2 : m.op2.Uniform
  copied : ∀ e ∈ tr, ∀ a, e.ret.copied = some a → a.Uniform

theorem uniform_run (calls : List (κ × Call)) (m : MatrixMultiplier)
    (tr : List (Returned κ Call Result))
    (hrun : (serial devIoctl handler).run initial calls = some (m, tr))
    (htr : ∀ e ∈ tr, e.call.user.Uniform) : UniformSoFar m tr := by
  refine serial_induction
    (fun m tr => (∀ e ∈ tr, e.call.user.Uniform) → UniformSoFar m tr)
    (fun m tr k c h htr => ?_) (fun _ => ⟨nofun, fun _ _ => rfl, fun _ _ => rfl, nofun⟩)
    calls m tr hrun htr
  have hold := h (fun e he => htr e (List.mem_append_left _ he))
  have hc : c.user.Uniform := htr ⟨k, c, (serve m c).2⟩
    (List.mem_append_right _ List.mem_cons_self)
  rcases uniform_serve m c hold.coherent hold.op1 hold.op2 hc with ⟨h1, h2, hcopied⟩
  refine ⟨coherent_serve m c hold.coherent, h1, h2, fun e he => ?_⟩
  rcases List.mem_append.mp he with he | he
  · exact hold.copied e he
  · rw [List.mem_singleton.mp he]
    exact hcopied

/-- A serial order of calls with uniform matrices leaves a uniform operand and
    returns uniform results: a mixture of two of them shows that there is no
    such order. -/
theorem uniform_of_serializable [DecidableEq κ] (m : MatrixMultiplier)
    (tr : List (Returned κ Call Result))
    (h : Serializable devIoctl handler operands initial m tr)
    (htr : ∀ e ∈ tr, e.call.user.Uniform) :
    m.op1.Uniform ∧ ∀ e ∈ tr, ∀ a, e.ret.copied = some a → a.Uniform := by
  rcases h with ⟨order, S, tr', hrun, hreturns, hobs⟩
  -- A return of either run is one of the other, found among its client's.
  have hmem : ∀ e, e ∈ tr' ↔ e ∈ tr := by
    intro e
    have hin : ∀ l : List (Returned κ Call Result), e ∈ returnsTo e.client l ↔ e ∈ l := by
      intro l
      rw [returnsTo, List.mem_filter]
      exact ⟨And.left, fun he => ⟨he, decide_eq_true rfl⟩⟩
    rw [← hin tr', ← hin tr, hreturns e.client]
  have huni := uniform_run order S tr' hrun (fun e he => htr e ((hmem e).mp he))
  have hop1 : S.op1 = m.op1 := congrArg Prod.fst hobs
  exact ⟨hop1 ▸ huni.op1, fun e he => huni.copied e ((hmem e).mpr he)⟩

end

/-- The end of a run of two clients: both are gone, every call had a uniform
    matrix, and yet op1 or a returned matrix is not. -/
def Mixes (x : Clients Bool × List (Returned Bool Call Result)) : Prop :=
  (∀ k, (x.1.client k).isNone = true) ∧ (∀ e ∈ x.2, e.call.user.Uniform) ∧
    (¬ x.1.shared.op1.Uniform ∨ ∃ e ∈ x.2, ∃ a ∈ e.ret.copied, ¬ a.Uniform)

instance (x : Clients Bool × List (Returned Bool Call Result)) : Decidable (Mixes x) :=
  inferInstanceAs (Decidable (_ ∧ _ ∧ _))

theorem not_serializable_of_mixes (P : Clients Bool) (tr : List (Returned Bool Call Result))
    (h : Mixes (P, tr)) :
    P.Idle ∧ ¬ Serializable devIoctl handler operands initial P.shared tr := by
  rcases h with ⟨hidle, hcalls, hmix⟩
  refine ⟨fun k => Option.isNone_iff_eq_none.mp (hidle k), fun hser => ?_⟩
  rcases uniform_of_serializable P.shared tr hser hcalls with ⟨hop1, hcopied⟩
  rcases hmix with hop1' | ⟨e, he, a, ha, hnot⟩
  · exact hop1' hop1
  · exact hnot (hcopied e he a ha)

/-- Two clients set op1 to ones and to twos. The second is done before the
    first, which has written one cell, goes on. -/
def tearing : List (PoolLabel Bool Call) :=
  enters false .setOp1Matrix 1 :: enters true .setOp1Matrix 2 ::
    (accesses false 1 ++ accesses true 16 ++ accesses false 15 ++ [.leave false, .leave true])

/-- One client sets op2 to ones and the opcode to 1, and gets the result when
    the other has written the first row of op1. -/
def halfWritten : List (PoolLabel Bool Call) :=
  enters false .setOp2Matrix 1 :: accesses false 16 ++ .leave false ::
    enters false .setOpcode 1 :: accesses false 1 ++ .leave false ::
    enters true .setOp1Matrix 1 :: accesses true 4 ++ enters false .getResult 0 ::
    (accesses false 16 ++ accesses true 12 ++ [.leave false, .leave true])

/-- One client has read the first cell of the result when the other sets the
    opcode to 1 and gets the result as well. -/
def recomputing : List (PoolLabel Bool Call) :=
  enters false .getResult 0 :: accesses false 1 ++ enters true .setOpcode 1 ::
    accesses true 1 ++ .leave true :: enters true .getResult 0 ::
    (accesses true 16 ++ accesses false 15 ++ [.leave false, .leave true])

/-- All calls of the run have returned, and no execution of them one at a time
    has the same outcome. -/
def Interferes (ls : List (PoolLabel Bool Call)) : Prop :=
  ∃ P tr, (pool devIoctl handler).run (Clients.idle initial) ls = some (P, tr) ∧ P.Idle ∧
    ¬ Serializable devIoctl handler operands initial P.shared tr

/-- The first run leaves a mixture of two matrices in op1, the second returns
    a product of half a matrix, and the third a mixture of two products. -/
theorem calls_interfere :
    Interferes tearing ∧ Interferes halfWritten ∧ Interferes recomputing := by
  have hmix : ∀ ls ∈ [tearing, halfWritten, recomputing],
      ∃ x ∈ (pool devIoctl handler).run (Clients.idle initial) ls, Mixes x := by
    decide +kernel
  have hinterferes : ∀ ls ∈ [tearing, halfWritten, recomputing], Interferes ls := by
    intro ls hls
    rcases hmix ls hls with ⟨⟨P, tr⟩, hrun, hmixes⟩
    exact ⟨P, tr, hrun, not_serializable_of_mixes P tr hmixes⟩
  refine ⟨hinterferes _ ?_, hinterferes _ ?_, hinterferes _ ?_⟩
  · exact List.mem_cons_self
  · exact List.mem_cons_of_mem _ List.mem_cons_self
  · exact List.mem_cons_of_mem _ (List.mem_cons_of_mem _ List.mem_cons_self)

end PcieCosim
