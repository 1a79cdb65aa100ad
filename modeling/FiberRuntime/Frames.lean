import FiberRuntime.Stack

/-!
# The frames `scan_stack_frames` walks

The native `scan_stack_frames`: from a stack's `sp` up to `Stack_high`, chunk after chunk, the
frames of OCaml code, each found by the descriptor of its return address, and at the end of each
chunk the return-to-C frame and the header whose saved `gc_regs` the next chunk's frames use.
The frame layout macros of `stack.h` and the frame tables are taken as given.  `visit` writes only
headers of local blocks, in the local arenas, so the walk is modelled over the stack's words as
the scan starts, and yields the slots it passes to `visit`, in order.  Addresses are in bytes, and
memory is read a word at a time, at `address / 8`.
-/

namespace FiberRuntime

/-- The live offsets of a frame descriptor, in its format. -/
inductive LiveOffsets where
  /-- `d->live_ofs` of a short descriptor: `uint16_t` offsets. -/
  | short (ofs : List UInt16)
  /-- `dl->live_ofs` of a long descriptor, `frame_is_long(d)`: `uint32_t` offsets. -/
  | long (ofs : List UInt32)
  deriving DecidableEq, Repr

/-- What `scan_stack_frames` reads of a `frame_descr`. -/
structure FrameDescr where
  /-- `frame_return_to_C(d)`. -/
  returnToC : Bool
  /-- `frame_size(d)`, in bytes. -/
  frameSize : Nat
  /-- The `num_live` live offsets. -/
  live : LiveOffsets
  deriving DecidableEq, Repr

/-- The frame layout of the platform's `stack.h`, and the frame tables. -/
structure FrameEnv where
  /-- `First_frame(sp) - sp`, in bytes. -/
  firstFrame : Nat
  /-- `Saved_return_address(sp)` is the word at byte `sp - returnAddressBelow`. -/
  returnAddressBelow : Nat
  /-- `Saved_gc_regs(sp)` is the word at byte `sp + gcRegsAbove`. -/
  gcRegsAbove : Nat
  /-- `Stack_header_size`, in bytes. -/
  stackHeaderSize : Nat
  /-- `caml_find_frame_descr(fds, retaddr)`, `NULL` as `none`. -/
  findFrameDescr : Nat → Option FrameDescr

namespace FrameEnv

/-- `Saved_return_address(sp)`. -/
def savedReturnAddress (fenv : FrameEnv) (mem : Nat → Nat) (sp : Nat) : Nat :=
  mem ((sp - fenv.returnAddressBelow) / 8)

/-- `Saved_gc_regs(sp)`. -/
def savedGcRegs (fenv : FrameEnv) (mem : Nat → Nat) (sp : Nat) : Nat :=
  mem ((sp + fenv.gcRegsAbove) / 8)

/-- The descriptor of the frame at `sp`, by its return address. -/
def descrAt (fenv : FrameEnv) (mem : Nat → Nat) (sp : Nat) : Option FrameDescr :=
  fenv.findFrameDescr (fenv.savedReturnAddress mem sp)

end FrameEnv

/-! ## The walk -/

/-- The slot `root` of live offset `ofs` in the frame at `sp`: `regs + (ofs >> 1)`, a register
saved in the `gc_regs` area, for an odd offset, and `sp + ofs` for an even one. -/
def liveRoot (regs sp ofs : Nat) : Nat :=
  if ofs % 2 = 1 then regs + 8 * (ofs / 2) else sp + ofs

/-- The `for` loop over live offsets, `ofs & 1` and `ofs >> 1` taken on the unsigned offset: the
slots passed to `visit`, after `roots`. -/
def visitLive (regs sp : Nat) : List Nat → List Nat → List Nat
  | [], roots => roots
  | ofs :: rest, roots => visitLive regs sp rest (roots ++ [liveRoot regs sp ofs])

/-- The loop over a short descriptor's `uint16_t` offsets. -/
def visitLiveShort (regs sp : Nat) (ofs : List UInt16) (roots : List Nat) : List Nat :=
  visitLive regs sp (ofs.map UInt16.toNat) roots

/-- The loop over a long descriptor's `uint32_t` offsets. -/
def visitLiveLong (regs sp : Nat) (ofs : List UInt32) (roots : List Nat) : List Nat :=
  visitLive regs sp (ofs.map UInt32.toNat) roots

/-- The roots of the frame at `sp`: the loop of its descriptor's format. -/
def visitFrame (d : FrameDescr) (regs sp : Nat) (roots : List Nat) : List Nat :=
  match d.live with
  | .short ofs => visitLiveShort regs sp ofs roots
  | .long ofs => visitLiveLong regs sp ofs roots

/-- Where `scan_stack_frames` is: at `next_chunk`, or in its `while (1)` loop at a frame. -/
inductive FrameWalk where
  | nextChunk
  | frame
  deriving DecidableEq, Repr

/-- The walk of `scan_stack_frames` up to byte `high`, from `sp` with the register area `regs`,
for at most `fuel` steps: the slots passed to `visit`, after `roots`, or `none` for a return
address without a descriptor or too little fuel. -/
def walkFrames (fenv : FrameEnv) (mem : Nat → Nat) (high : Nat) :
    Nat → FrameWalk → Nat → Nat → List Nat → Option (List Nat)
  | 0, _, _, _, _ => none
  | fuel + 1, .nextChunk, sp, regs, roots =>
      if sp = high then some roots
      else walkFrames fenv mem high fuel .frame (sp + fenv.firstFrame) regs roots
  | fuel + 1, .frame, sp, regs, roots =>
      match fenv.descrAt mem sp with
      | none => none
      | some d =>
          if d.returnToC then
            walkFrames fenv mem high fuel .nextChunk (sp + fenv.stackHeaderSize)
              (fenv.savedGcRegs mem sp) roots
          else walkFrames fenv mem high fuel .frame (sp + d.frameSize) regs (visitFrame d regs sp roots)

/-- `scan_stack_frames(f, fflags, fdata, stack, gc_regs, locals)`, for at most `fuel` steps. -/
def scanStackFrames (env : Env) (fenv : FrameEnv) (mem : Nat → Nat) (fuel : Nat)
    (info : StackInfo) (gcRegs : Nat) : Option (List Nat) :=
  walkFrames fenv mem (8 * env.stackHigh info) fuel .nextChunk (8 * info.sp) gcRegs []

/-! ## The chunks of a stack -/

/-- The offsets of a descriptor, as numbers. -/
def LiveOffsets.toNats : LiveOffsets → List Nat
  | .short ofs => ofs.map UInt16.toNat
  | .long ofs => ofs.map UInt32.toNat

/-- The slots of a frame's live offsets: the register at `regs + 8 * (ofs / 2)` for an odd offset,
the frame slot at `sp + ofs` for an even one. -/
def FrameDescr.liveRoots (d : FrameDescr) (regs sp : Nat) : List Nat :=
  d.live.toNats.map fun ofs => if ofs % 2 = 1 then regs + 8 * (ofs / 2) else sp + ofs

/-- The frames of one chunk from the frame at `sp`: frames of OCaml code, each with the descriptor
of its return address, up to the return-to-C frame at `last`. -/
inductive ChunkFrames (fenv : FrameEnv) (mem : Nat → Nat) :
    Nat → List (Nat × FrameDescr) → Nat → Prop
  /-- The return-to-C frame ending the chunk. -/
  | toC {sp : Nat} {d : FrameDescr} (found : fenv.descrAt mem sp = some d)
      (returnToC : d.returnToC = true) : ChunkFrames fenv mem sp [] sp
  /-- A frame of OCaml code, `frame_size(d)` bytes long. -/
  | ocaml {sp last : Nat} {d : FrameDescr} {frames : List (Nat × FrameDescr)}
      (found : fenv.descrAt mem sp = some d) (ocaml : d.returnToC = false)
      (rest : ChunkFrames fenv mem (sp + d.frameSize) frames last) :
      ChunkFrames fenv mem sp ((sp, d) :: frames) last

/-- The region from `sp` up to `Stack_high` at byte `high`, cut into chunks, each with the register
area its frames use: `gc_regs` for the first, and for each next one the `gc_regs` saved in the
header after the return-to-C frame of the chunk before. -/
inductive StackChunks (fenv : FrameEnv) (mem : Nat → Nat) (high : Nat) :
    Nat → Nat → List (Nat × List (Nat × FrameDescr)) → Prop
  /-- `Stack_high`. -/
  | top {regs : Nat} : StackChunks fenv mem high high regs []
  /-- A chunk below `Stack_high`, from its first frame to its header. -/
  | chunk {sp regs last : Nat} {frames : List (Nat × FrameDescr)}
      {chunks : List (Nat × List (Nat × FrameDescr))} (below : sp < high)
      (inChunk : ChunkFrames fenv mem (sp + fenv.firstFrame) frames last)
      (rest : StackChunks fenv mem high (last + fenv.stackHeaderSize) (fenv.savedGcRegs mem last)
        chunks) :
      StackChunks fenv mem high sp regs ((regs, frames) :: chunks)

/-- The slots the scan must visit: every live offset of every frame, chunk after chunk, with the
chunk's register area. -/
def chunkRoots (chunks : List (Nat × List (Nat × FrameDescr))) : List Nat :=
  chunks.flatMap fun chunk => chunk.2.flatMap fun frame => frame.2.liveRoots chunk.1 frame.1

/-- The steps the walk takes over the chunks: one per frame, two per chunk, one at the top. -/
def chunkSteps : List (Nat × List (Nat × FrameDescr)) → Nat
  | [] => 1
  | chunk :: chunks => chunk.2.length + 2 + chunkSteps chunks

/-- The byte where the frames from `sp` end: that of the return-to-C frame of their chunk. -/
def framesEnd (sp : Nat) : List (Nat × FrameDescr) → Nat
  | [] => sp
  | (_, d) :: frames => framesEnd (sp + d.frameSize) frames

/-- The words the walk reads in the frames of a chunk that end at `last`: each frame's saved return
address, then the return-to-C frame's, and the `gc_regs` saved above it. -/
def framesReads (fenv : FrameEnv) (frames : List (Nat × FrameDescr)) (last : Nat) : List Nat :=
  frames.map (fun frame => (frame.1 - fenv.returnAddressBelow) / 8) ++
    [(last - fenv.returnAddressBelow) / 8, (last + fenv.gcRegsAbove) / 8]

/-- The words the walk reads in the chunks from `sp`. -/
def chunkReads (fenv : FrameEnv) : Nat → List (Nat × List (Nat × FrameDescr)) → List Nat
  | _, [] => []
  | sp, (_, frames) :: chunks =>
      framesReads fenv frames (framesEnd (sp + fenv.firstFrame) frames) ++
        chunkReads fenv (framesEnd (sp + fenv.firstFrame) frames + fenv.stackHeaderSize) chunks

theorem ChunkFrames.last_eq {fenv : FrameEnv} {mem : Nat → Nat} {sp last : Nat}
    {frames : List (Nat × FrameDescr)} (inChunk : ChunkFrames fenv mem sp frames last) :
    last = framesEnd sp frames := by
  induction inChunk with
  | toC => rfl
  | ocaml _ _ _ induction => exact induction

theorem visitLive_eq (regs sp : Nat) (ofs : List Nat) (roots : List Nat) :
    visitLive regs sp ofs roots = roots ++ ofs.map (liveRoot regs sp) := by
  induction ofs generalizing roots with
  | nil => simp [visitLive]
  | cons o rest induction => simp [visitLive, induction]

theorem visitFrame_eq (d : FrameDescr) (regs sp : Nat) (roots : List Nat) :
    visitFrame d regs sp roots = roots ++ d.liveRoots regs sp := by
  unfold visitFrame FrameDescr.liveRoots
  cases d.live <;> simp [visitLiveShort, visitLiveLong, visitLive_eq, LiveOffsets.toNats, liveRoot]

theorem ChunkFrames.walk {fenv : FrameEnv} {mem : Nat → Nat} {high sp last : Nat}
    {frames : List (Nat × FrameDescr)} (inChunk : ChunkFrames fenv mem sp frames last)
    (fuel regs : Nat) (roots : List Nat) :
    walkFrames fenv mem high (frames.length + fuel + 1) .frame sp regs roots =
      walkFrames fenv mem high fuel .nextChunk (last + fenv.stackHeaderSize)
        (fenv.savedGcRegs mem last)
        (roots ++ frames.flatMap fun frame => frame.2.liveRoots regs frame.1) := by
  induction inChunk generalizing roots with
  | toC found returnToC => simp [walkFrames, found, returnToC]
  | @ocaml sp last d frames found ocaml _ induction =>
    rw [show ((sp, d) :: frames).length + fuel + 1 = (frames.length + fuel + 1) + 1 by
      simp only [List.length_cons]; omega, walkFrames]
    simp only [found, ocaml, Bool.false_eq_true, ↓reduceIte]
    rw [induction, visitFrame_eq, List.flatMap_cons, List.append_assoc]

theorem StackChunks.walk {fenv : FrameEnv} {mem : Nat → Nat} {high sp regs : Nat}
    {chunks : List (Nat × List (Nat × FrameDescr))} (stack : StackChunks fenv mem high sp regs chunks)
    (fuel : Nat) (roots : List Nat) :
    walkFrames fenv mem high (chunkSteps chunks + fuel) .nextChunk sp regs roots =
      some (roots ++ chunkRoots chunks) := by
  induction stack generalizing roots with
  | top => simp [chunkSteps, chunkRoots, Nat.add_comm 1, walkFrames]
  | @chunk sp regs last frames chunks below inChunk _ induction =>
    rw [show chunkSteps ((regs, frames) :: chunks) + fuel =
        (frames.length + (chunkSteps chunks + fuel) + 1) + 1 by
      simp only [chunkSteps]; omega, walkFrames]
    simp only [Nat.ne_of_lt below, ↓reduceIte]
    rw [inChunk.walk, induction]
    simp only [chunkRoots, List.flatMap_cons, List.append_assoc]

theorem StackChunks.scanStackFrames_eq {env : Env} {fenv : FrameEnv} {mem : Nat → Nat}
    {info : StackInfo} {gcRegs : Nat} {chunks : List (Nat × List (Nat × FrameDescr))}
    (decomposed : StackChunks fenv mem (8 * env.stackHigh info) (8 * info.sp) gcRegs chunks)
    {fuel : Nat} (enough : chunkSteps chunks ≤ fuel) :
    scanStackFrames env fenv mem fuel info gcRegs = some (chunkRoots chunks) := by
  obtain ⟨spare, rfl⟩ := Nat.exists_eq_add_of_le enough
  simpa using decomposed.walk spare []

/-- A stack cut into chunks of frames up to `Stack_high`: `scan_stack_frames` terminates, and it
passes to `visit` exactly the live slots of every frame, once each in frame order, an odd offset
taken in the register area of its chunk and an even one in its frame; a short and a long
descriptor with the same offsets give the same slots. -/
theorem scan_stack_frames_visits {env : Env} {fenv : FrameEnv} {mem : Nat → Nat}
    {info : StackInfo} {gcRegs : Nat} {chunks : List (Nat × List (Nat × FrameDescr))}
    (decomposed : StackChunks fenv mem (8 * env.stackHigh info) (8 * info.sp) gcRegs chunks)
    {fuel : Nat} (enough : chunkSteps chunks ≤ fuel) :
    scanStackFrames env fenv mem fuel info gcRegs = some (chunkRoots chunks) ∧
      ∀ (d d' : FrameDescr) (regs sp : Nat) (roots : List Nat), d.live.toNats = d'.live.toNats →
        visitFrame d regs sp roots = visitFrame d' regs sp roots := by
  refine ⟨decomposed.scanStackFrames_eq enough, fun d d' regs sp roots same => ?_⟩
  rw [visitFrame_eq, visitFrame_eq, FrameDescr.liveRoots, FrameDescr.liveRoots, same]

/-- A sample frame table: return address `100` names a frame of OCaml code of three words with two
live offsets, `300` one of two words with a long descriptor, and `200` a return to C. -/
def sampleFrames : FrameEnv where
  firstFrame := 8
  returnAddressBelow := 8
  gcRegsAbove := 16
  stackHeaderSize := 32
  findFrameDescr retaddr :=
    if retaddr = 100 then some ⟨false, 24, .short [16, 3]⟩
    else if retaddr = 200 then some ⟨true, 0, .short []⟩
    else if retaddr = 300 then some ⟨false, 16, .long [8, 5]⟩
    else none

/-- A stack of two chunks between bytes `4000` and `4120`, each a frame of OCaml code and a return
to C, the header of the first saving `gc_regs` `7000`. -/
def framedStack (word : Nat) : Nat :=
  if word = 500 then 100 else if word = 503 then 200 else if word = 506 then 7000
  else if word = 508 then 300 else if word = 510 then 200 else if word = 513 then 9000 else 0

/-- The record of the framed stack: `sp` at word `500`, the handler at word `516`. -/
def framedRecord : StackInfo := ⟨500, none, 516, 0, 0, 0, none, -1, 0, 0, none, 0, none, 0⟩

/-- The chunks of the framed stack, with the register areas `6000` and `7000`. -/
def framedChunks : List (Nat × List (Nat × FrameDescr)) :=
  [(6000, [(4008, ⟨false, 24, .short [16, 3]⟩)]), (7000, [(4072, ⟨false, 16, .long [8, 5]⟩)])]

/-- The framed stack is cut into its two chunks, and the scan visits their four live slots. -/
theorem framed_stack_visits :
    StackChunks sampleFrames framedStack (8 * (samplePlatform .plain true 64).stackHigh framedRecord)
        (8 * framedRecord.sp) 6000 framedChunks ∧ chunkSteps framedChunks ≤ 7 ∧
      scanStackFrames (samplePlatform .plain true 64) sampleFrames framedStack 7 framedRecord 6000 =
          some (chunkRoots framedChunks) ∧
        ∀ (d d' : FrameDescr) (regs sp : Nat) (roots : List Nat), d.live.toNats = d'.live.toNats →
          visitFrame d regs sp roots = visitFrame d' regs sp roots :=
  have decomposed : StackChunks sampleFrames framedStack
      (8 * (samplePlatform .plain true 64).stackHigh framedRecord) (8 * framedRecord.sp) 6000
      framedChunks :=
    .chunk (by decide) (.ocaml rfl rfl (.toC rfl rfl))
      (.chunk (by decide) (.ocaml rfl rfl (.toC rfl rfl)) .top)
  ⟨decomposed, by decide, scan_stack_frames_visits decomposed (by decide)⟩

/-- The slots: an even and an odd offset of each frame, the odd ones in the register area of the
frame's chunk. -/
example : scanStackFrames (samplePlatform .plain true 64) sampleFrames framedStack 7 framedRecord
    6000 = some [4024, 6008, 4080, 7016] :=
  rfl

end FiberRuntime
