import FiberRuntime.Frames
import FiberRuntime.GrownRoots

/-!
# What the native frame walk sees of a grown stack

In native code, `caml_try_realloc_stack` copies the live words of the current stack to the same
depth below `Stack_high` of the new stack, and then rewrites the links of the exception handler
chain and the saved frame pointers that held addresses of the old stack.  The words
`scan_stack_frames` reads, the saved return addresses and the `gc_regs` saved in the chunk headers,
hold code and heap addresses, so they are copied as they are.  The walk of the new stack therefore
finds the same chunks and frames, each frame moved by `Stack_high(new) - Stack_high(old)` words
and each chunk with the same register area.
-/

namespace FiberRuntime

open Store

/-- The frames of a chunk, each moved from a stack whose `Stack_high` is at byte `high` to one
whose `Stack_high` is at byte `high'`. -/
def moveFrames (high high' : Nat) (frames : List (Nat × FrameDescr)) : List (Nat × FrameDescr) :=
  frames.map fun frame => (frame.1 + high' - high, frame.2)

/-- The chunks of a stack so moved, each with its register area. -/
def moveChunks (high high' : Nat) (chunks : List (Nat × List (Nat × FrameDescr))) :
    List (Nat × List (Nat × FrameDescr)) :=
  chunks.map fun chunk => (chunk.1, moveFrames high high' chunk.2)

theorem chunkSteps_moveChunks (high high' : Nat) (chunks : List (Nat × List (Nat × FrameDescr))) :
    chunkSteps (moveChunks high high' chunks) = chunkSteps chunks := by
  induction chunks with
  | nil => rfl
  | cons chunk chunks induction =>
    simp only [moveChunks, List.map_cons, chunkSteps, moveFrames, List.length_map] at induction ⊢
    rw [induction]

theorem framesReads_cons (fenv : FrameEnv) (frame : Nat × FrameDescr)
    (frames : List (Nat × FrameDescr)) (last : Nat) :
    framesReads fenv (frame :: frames) last =
      (frame.1 - fenv.returnAddressBelow) / 8 :: framesReads fenv frames last := rfl

/-! ## The walk over moved words -/

section Moved

/- The old stack's live words start at word `sp0` and end below word `high`; those of the new
stack end below word `high'`, which leaves room for them, and `mem'` holds at each moved word what
`mem` held at the word the walk reads. -/
variable {fenv : FrameEnv} {mem mem' : Nat → Nat} {sp0 high high' : Nat}

theorem descrAt_moved (positive : 0 < sp0) {sp : Nat}
    (read : sp0 ≤ (sp - fenv.returnAddressBelow) / 8)
    (copied : mem' ((sp - fenv.returnAddressBelow) / 8 + high' - high) =
      mem ((sp - fenv.returnAddressBelow) / 8)) :
    fenv.descrAt mem' (sp + 8 * high' - 8 * high) = fenv.descrAt mem sp := by
  unfold FrameEnv.descrAt FrameEnv.savedReturnAddress
  rw [show (sp + 8 * high' - 8 * high - fenv.returnAddressBelow) / 8 =
    (sp - fenv.returnAddressBelow) / 8 + high' - high by omega, copied]

theorem savedGcRegs_moved (room : high - sp0 ≤ high') {last : Nat} (above : 8 * sp0 ≤ last)
    (copied : mem' ((last + fenv.gcRegsAbove) / 8 + high' - high) =
      mem ((last + fenv.gcRegsAbove) / 8)) :
    fenv.savedGcRegs mem' (last + 8 * high' - 8 * high) = fenv.savedGcRegs mem last := by
  unfold FrameEnv.savedGcRegs
  rw [show (last + 8 * high' - 8 * high + fenv.gcRegsAbove) / 8 =
    (last + fenv.gcRegsAbove) / 8 + high' - high by omega, copied]

theorem ChunkFrames.moved {sp last : Nat} {frames : List (Nat × FrameDescr)}
    (inChunk : ChunkFrames fenv mem sp frames last) (positive : 0 < sp0) (room : high - sp0 ≤ high')
    (copied : ∀ x ∈ framesReads fenv frames last, sp0 ≤ x ∧ mem' (x + high' - high) = mem x) :
    ChunkFrames fenv mem' (sp + 8 * high' - 8 * high) (moveFrames (8 * high) (8 * high') frames)
      (last + 8 * high' - 8 * high) := by
  induction inChunk with
  | toC found returnToC =>
    obtain ⟨read, word⟩ := copied _ (List.mem_append_right _ (List.mem_cons_self _ _))
    exact .toC ((descrAt_moved positive read word).trans found) returnToC
  | @ocaml sp last d frames found ocaml _ induction =>
    rw [framesReads_cons] at copied
    obtain ⟨read, word⟩ := copied _ (List.mem_cons_self _ _)
    refine .ocaml ((descrAt_moved positive read word).trans found) ocaml ?_
    rw [show sp + 8 * high' - 8 * high + d.frameSize = sp + d.frameSize + 8 * high' - 8 * high by
      omega]
    exact induction fun x listed => copied x (List.mem_cons_of_mem _ listed)

theorem StackChunks.moved {sp regs : Nat} {chunks : List (Nat × List (Nat × FrameDescr))}
    (stack : StackChunks fenv mem (8 * high) sp regs chunks) (positive : 0 < sp0)
    (room : high - sp0 ≤ high') (start : 8 * sp0 ≤ sp)
    (copied : ∀ x ∈ chunkReads fenv sp chunks, sp0 ≤ x ∧ mem' (x + high' - high) = mem x) :
    StackChunks fenv mem' (8 * high') (sp + 8 * high' - 8 * high) regs
      (moveChunks (8 * high) (8 * high') chunks) := by
  induction stack with
  | top =>
    rw [Nat.add_sub_cancel_left]
    exact .top
  | @chunk sp regs last frames chunks below inChunk _ induction =>
    simp only [chunkReads, ← inChunk.last_eq] at copied
    obtain ⟨read, word⟩ := copied _ (List.mem_append_left _
      (List.mem_append_right _ (List.mem_cons_self _ _)))
    obtain ⟨-, gcWord⟩ := copied _ (List.mem_append_left _
      (List.mem_append_right _ (List.mem_cons_of_mem _ (List.mem_cons_self _ _))))
    have above : 8 * sp0 ≤ last := by omega
    refine @StackChunks.chunk fenv mem' (8 * high') (sp + 8 * high' - 8 * high) regs
      (last + 8 * high' - 8 * high) _ _ (by omega) ?_ ?_
    · rw [show sp + 8 * high' - 8 * high + fenv.firstFrame =
        sp + fenv.firstFrame + 8 * high' - 8 * high by omega]
      exact inChunk.moved positive room fun x listed => copied x (List.mem_append_left _ listed)
    · rw [show last + 8 * high' - 8 * high + fenv.stackHeaderSize =
        last + fenv.stackHeaderSize + 8 * high' - 8 * high by omega,
        savedGcRegs_moved room above gcWord]
      exact induction (by omega) fun x listed => copied x (List.mem_append_right _ listed)

end Moved

/-! ## The copy of a native growth -/

namespace Regrowth

variable {env : Env} {rt rt' : Runtime} {domain requiredSpace fuel wsize newStack : Nat}
  {old new : StackInfo} {rewritten : Domain × (Nat → Nat)}

theorem relocated_native
    (growth : Regrowth env rt rt' domain requiredSpace fuel old wsize newStack new rewritten)
    (native : env.nativeCode = true)
    (apart : (relocation env (rt.domains domain).currentStack old new).Apart old.sp)
    (small : env.stackHigh old - old.sp < 2 ^ 31) {trapFrames : List Nat}
    (chainOf : CStackLink → List Nat)
    (trap : Climb (fun link => env.stackBase (rt.domains domain).currentStack < link ∧
        link ≤ env.stackHigh old) rt.mem (env.stackHigh old) old.sp
      (rt.domains domain).exnHandler trapFrames)
    (frames : ∀ link ∈ (rt.domains domain).cStack,
      link.stack = (rt.domains domain).currentStack → env.withFramePointers = true →
      Climb (fun prev => env.stackBase (rt.domains domain).currentStack ≤ prev ∧
        prev < env.stackHigh old) rt.mem (env.stackHigh old) old.sp link.framePrev (chainOf link)) :
    ∃ moved, Relocation.Relocated (relocation env (rt.domains domain).currentStack old new) old.sp
      rt.mem moved rt'.mem := by
  obtain ⟨cache, rewrote⟩ := growth.rewrote
  rw [growth.mem]
  obtain ⟨-, moved, rel, -⟩ := @Relocation.rewritePointers_spec _ _ _ _ _ _ apart native _ _ _
    { rt.domains domain with stackCache := cache } _ _ chainOf trap frames (apart.copied small rt.mem)
    rewrote
  exact ⟨moved, rel⟩

end Regrowth

/-! ## The walk of a grown stack -/

/-- The running fiber's live words as native code leaves them, walked with the sample frame table:
frames of OCaml code with return address `100` read at words `4160` and `4163`, a return to C
read at word `4166` whose header saves `gc_regs` `7000` at word `4169`, and a trap frame at `4162`
linking to one at `4165`. -/
def framedRunningMem (address : Nat) : Nat :=
  if address = 4160 ∨ address = 4163 then 100 else if address = 4166 then 200
  else if address = 4169 then 7000 else if address = 4162 then 4165 else 0

/-- A native fiber running on the stack at `4096` over `framedRunningMem`, its exception handler
the trap frame at `4162`. -/
def framedFiber (env : Env) : Runtime :=
  runOn (fiberAllocated env 1024 64).1 0 4096 runningRecord 4162 0 [] framedRunningMem

/-- The framed fiber's live region: one chunk of two frames of OCaml code, with the register area
`6000`. -/
def framedRunningChunks : List (Nat × List (Nat × FrameDescr)) :=
  [(6000, [(33288, ⟨false, 24, .short [16, 3]⟩), (33312, ⟨false, 24, .short [16, 3]⟩)])]

end FiberRuntime
