import Mathlib.Tactic.Common
import Mathlib.Algebra.Group.Int

/-!
# Stack segments and the memory behind them

The data model of `struct stack_info` with its trailing `struct stack_handler`, and
`alloc_for_stack`, which takes a segment's memory from one of three backends fixed when the
runtime is built.  Addresses are counted in words (`value*` units): every length the backends
compute is a multiple of `sizeof(value)` and every block they return is value-aligned.
Unsigned sizes (`mlsize_t`, `size_t`, `uintnat`) wrap modulo `2^64` as the C computes them.
-/

namespace FiberRuntime

/-- `uintnat` arithmetic wraps modulo `2^64`. -/
def wordModulus : Nat := 2 ^ 64

/-- The words of a 64-bit address space. -/
def addressWords : Nat := 2 ^ 61

/-- `sizeof(struct stack_handler) / sizeof(value)`: three handlers and the parent link. -/
def stackHandlerWords : Nat := 4

/-- `round_up_p2`: `(x + p2 - 1) & ~(p2 - 1)` in `uintnat`. -/
def roundUpP2 (x p2 : Nat) : Nat :=
  (x + p2 - 1) % wordModulus &&& (wordModulus - p2)

theorem mask_eq {n shift : Nat} (small : shift ≤ 64) (fits : n < wordModulus) :
    n &&& (wordModulus - 2 ^ shift) = 2 ^ shift * (n / 2 ^ shift) := by
  have positive : 0 < 2 ^ shift := Nat.two_pow_pos shift
  have below : 2 ^ shift - 1 < 2 ^ 64 := by
    have := Nat.pow_le_pow_right (by omega : 0 < 2) small
    omega
  have mask : wordModulus - 2 ^ shift = 2 ^ 64 - (2 ^ shift - 1 + 1) := by
    simp only [wordModulus]
    omega
  rw [mask]
  have high : ∀ j, shift ≤ j → n.testBit j = (n / 2 ^ shift).testBit (j - shift) := by
    intro j above
    conv_lhs => rw [← Nat.div_add_mod n (2 ^ shift)]
    rw [Nat.testBit_mul_pow_two_add _ (Nat.mod_lt n positive)]
    simp [Nat.not_lt.mpr above]
  apply Nat.eq_of_testBit_eq
  intro j
  rw [Nat.testBit_and, Nat.testBit_two_pow_sub_succ below, Nat.testBit_two_pow_sub_one,
    Nat.testBit_mul_pow_two]
  by_cases low : j < shift
  · simp [low, Nat.not_le.mpr low]
  · have above : shift ≤ j := Nat.le_of_not_lt low
    by_cases inside : j < 64
    · simp [low, inside, above, high j above]
    · have out : n.testBit j = false :=
        Nat.testBit_lt_two_pow (Nat.lt_of_lt_of_le fits
          (Nat.pow_le_pow_right (by omega) (Nat.le_of_not_lt inside)))
      simp [low, inside, above, ← high j above, out]

theorem roundUpP2_eq {x shift : Nat} (small : shift ≤ 64)
    (fits : x + 2 ^ shift - 1 < wordModulus) :
    roundUpP2 x (2 ^ shift) = 2 ^ shift * ((x + 2 ^ shift - 1) / 2 ^ shift) := by
  unfold roundUpP2
  rw [Nat.mod_eq_of_lt fits]
  exact mask_eq small fits

/-- The exceptions this file raises into OCaml code. -/
inductive Failure where
  /-- `caml_raise_out_of_memory`. -/
  | outOfMemory
  /-- `caml_raise_stack_overflow`. -/
  | stackOverflow
  /-- `Effect.Continuation_already_resumed`. -/
  | continuationAlreadyResumed
  deriving DecidableEq, Repr

/-- The stack memory backend selected when the runtime is built. -/
inductive Backend where
  /-- `USE_MMAP_MAP_STACK`: `mmap` with `MAP_STACK`. -/
  | mmapMapStack
  /-- `STACK_GUARD_PAGES`: `caml_mem_map` with a `PROT_NONE` guard page below the stack. -/
  | guardPages
  /-- Neither: `caml_stat_alloc_noexc`, with overflow checked in software. -/
  | plain
  deriving DecidableEq, Repr

/-- `struct stack_info` and its trailing `struct stack_handler`.  `magic` exists only in debug
builds and is left out. -/
structure StackInfo where
  /-- `sp`: the lowest live word. -/
  sp : Nat
  /-- `exception_ptr`; on a cached stack, the next stack of the free list. -/
  exceptionPtr : Option Nat
  /-- `handler`: the address of the trailing `struct stack_handler`. -/
  handler : Nat
  /-- `handler->handle_value`. -/
  handleValue : Nat
  /-- `handler->handle_exn`. -/
  handleExn : Nat
  /-- `handler->handle_effect`. -/
  handleEffect : Nat
  /-- `handler->parent`. -/
  parent : Option Nat
  /-- `cache_bucket`: the size class, or `-1` when unpooled. -/
  cacheBucket : Int
  /-- `size`: the mapping length in bytes, set by the mapped backends. -/
  size : Nat
  /-- `id`. -/
  id : Int
  /-- `local_arenas`. -/
  localArenas : Option Nat
  /-- `local_sp`. -/
  localSp : Int
  /-- `local_top`. -/
  localTop : Option Nat
  /-- `local_limit`. -/
  localLimit : Int
  deriving DecidableEq, Repr

/-- The local-allocation pointers that `caml_refresh_locals` brings up to date. -/
structure LocalPointers where
  /-- `local_sp`. -/
  localSp : Int
  /-- `local_top`. -/
  localTop : Option Nat
  /-- `local_limit`. -/
  localLimit : Int
  deriving DecidableEq, Repr

/-- What `fiber.c` takes from the build, from the startup tunables and from the platform, with
the facts about them it relies on. -/
structure Env where
  /-- The stack memory backend. -/
  backend : Backend
  /-- `NATIVE_CODE`. -/
  nativeCode : Bool
  /-- `WITH_FRAME_POINTERS`. -/
  withFramePointers : Bool
  /-- `Stack_padding_word`. -/
  stackPaddingWord : Nat
  /-- `Stack_ctx_words`: `sizeof(struct stack_info) / sizeof(value)`. -/
  stackCtxWords : Nat
  /-- `caml_plat_pagesize` is `2 ^ pageShift` bytes. -/
  pageShift : Nat
  /-- `caml_mem_round_up_mapping_size`. -/
  roundUpMappingSize : Nat → Nat
  /-- `caml_fiber_wsz`. -/
  fiberWsz : Nat
  /-- `Stack_threshold`, in bytes. -/
  stackThreshold : Nat
  /-- `caml_refresh_locals`: the up-to-date local pointers of a stack, given its address; the arena
  set it returns is taken to be the record's `localArenas`. -/
  refreshLocals : Nat → StackInfo → LocalPointers
  /-- A page holds whole words. -/
  word_le_page : 3 ≤ pageShift
  /-- A page is a word-sized quantity. -/
  page_lt_word : pageShift < 64
  /-- `CAMLassert(sizeof(struct stack_info) <= page_size)`. -/
  info_le_page : 8 * stackCtxWords ≤ 2 ^ pageShift
  /-- `struct stack_info` is more than one word: it holds `sp` and `exception_ptr` at least. -/
  info_words : 2 ≤ stackCtxWords
  /-- Mappings are rounded up, to whole pages. -/
  roundUpMappingSize_ge : ∀ len, len ≤ roundUpMappingSize len
  roundUpMappingSize_page : ∀ len, 2 ^ pageShift ∣ roundUpMappingSize len
  /-- `caml_fiber_wsz` is a `uintnat`. -/
  fiberWsz_lt : fiberWsz < wordModulus

namespace Env

/-- `caml_plat_pagesize`, in bytes. -/
def pageSize (env : Env) : Nat := 2 ^ env.pageShift

/-- `Stack_base` (a macro of `fiber.h`): the lowest usable word, above the `struct stack_info`,
or above the info page and the guard page when the backend keeps guard pages. -/
def stackBase (env : Env) (stack : Nat) : Nat :=
  match env.backend with
  | .guardPages => stack + 2 * (env.pageSize / 8)
  | _ => stack + env.stackCtxWords

/-- `Stack_high`: one past the highest usable word, `Stack_padding_word` below the handler. -/
def stackHigh (env : Env) (info : StackInfo) : Nat := info.handler - env.stackPaddingWord

/-- `Protected_stack_page` (a macro of `fiber.h`): the page after the one holding the
`struct stack_info`, which the guard-page backend makes `PROT_NONE`. -/
def protectedStackPage (env : Env) (stack : Nat) : Nat := stack + env.pageSize / 8

theorem stackBase_of_unguarded {env : Env} (unguarded : env.backend ≠ .guardPages) (stack : Nat) :
    env.stackBase stack = stack + env.stackCtxWords := by
  unfold stackBase
  split
  · contradiction
  · rfl

end Env

/-- The end of the part of a stack's memory that the runtime touches: its `struct stack_info`,
usable words, padding and handler record all lie in `[stack, extentEnd)`. -/
def StackInfo.extentEnd (info : StackInfo) : Nat := info.handler + stackHandlerWords

/-- The stacks holding memory, by the address of their `struct stack_info`. -/
abbrev Stacks := Nat → Option StackInfo

/-- A block of `words` words at `start` lies in the address space above its lowest words (the
null page is never mapped), starts at no stack's address and overlaps no stack. -/
def FreshBlock (records : Stacks) (start words : Nat) : Prop :=
  stackHandlerWords < start ∧ start + words ≤ addressWords ∧
    ∀ stack info, records stack = some info →
      stack ≠ start ∧ (start + words ≤ stack ∨ info.extentEnd ≤ start)

/-- What `alloc_for_stack` may assume of the memory a backend hands out: a block of the requested
byte length that does not run past the address space, page-aligned when it is a mapping. -/
structure BackendMemory (env : Env) (allocate : Nat → Option Nat) : Prop where
  /-- The block ends inside the address space. -/
  inside : ∀ len start, allocate len = some start → start + (len + 7) / 8 ≤ addressWords
  /-- `mmap` and `caml_mem_map` return whole pages. -/
  mappedAligned : ∀ len start, allocate len = some start → env.backend ≠ .plain →
    env.pageSize / 8 ∣ start

/-- The system allocator as it answers in a given store (`caml_stat_alloc_noexc`, `mmap`,
`caml_mem_map` followed by `mprotect`): nothing, or a fresh block of the requested byte length,
page-aligned when it comes from a mapping. -/
structure SystemAllocator (env : Env) (records : Stacks) where
  /-- The block returned for a request of `len` bytes, or `none` for `NULL`/`MAP_FAILED`. -/
  allocate : Nat → Option Nat
  fresh : ∀ len start, allocate len = some start → FreshBlock records start ((len + 7) / 8)
  mappedAligned : ∀ len start, allocate len = some start → env.backend ≠ .plain →
    env.pageSize / 8 ∣ start

theorem SystemAllocator.memory {env : Env} {records : Stacks} (system : SystemAllocator env records) :
    BackendMemory env system.allocate :=
  ⟨fun len start answered => (system.fresh len start answered).2.1, system.mappedAligned⟩

/-- What `alloc_for_stack` initialises: the block, its `handler` and, for the mapped backends,
its `size`. -/
structure Block where
  /-- The address of the new `struct stack_info`. -/
  stack : Nat
  /-- `handler`. -/
  handler : Nat
  /-- `size`; the plain backend leaves it unset. -/
  size : Nat
  deriving DecidableEq, Repr

/-- The byte length the `mmap` and `caml_stat_alloc_noexc` backends ask for: the
`struct stack_info`, the words, eight bytes to align the handler, and the handler record. -/
def allocLength (env : Env) (wosize : Nat) : Nat :=
  (8 * env.stackCtxWords + 8 * wosize + 8 + 8 * stackHandlerWords) % wordModulus

/-- The handler of a block at `si` in those backends: the end of its words, rounded up to
16 bytes. -/
def alignedHandler (env : Env) (si wosize : Nat) : Nat :=
  roundUpP2 ((8 * si + 8 * env.stackCtxWords + 8 * wosize) % wordModulus) 16 / 8

/-- `trailer_size`: the handler record rounded up to 16 bytes. -/
def trailerSize : Nat := roundUpP2 (8 * stackHandlerWords) 16

/-- The mapping length of the guard-page backend: the words, the trailer, the info page and the
guard page, rounded up by `caml_mem_round_up_mapping_size`. -/
def guardedLength (env : Env) (wosize : Nat) : Nat :=
  env.roundUpMappingSize ((8 * wosize + trailerSize + 2 * env.pageSize) % wordModulus)

/-- `alloc_for_stack`: a block with at least `wosize` usable words from the build's backend. -/
def allocForStack (env : Env) (allocate : Nat → Option Nat) (wosize : Nat) : Option Block :=
  let wosize := (wosize + env.stackPaddingWord) % wordModulus
  match env.backend with
  | .mmapMapStack =>
      (allocate (allocLength env wosize)).map fun si =>
        { stack := si, handler := alignedHandler env si wosize, size := allocLength env wosize }
  | .guardPages =>
      (allocate (guardedLength env wosize)).map fun stack =>
        { stack
          handler := (8 * stack + guardedLength env wosize - trailerSize) / 8
          size := guardedLength env wosize }
  | .plain =>
      (allocate (allocLength env wosize)).map fun stack =>
        { stack, handler := alignedHandler env stack wosize, size := 0 }

/-- A 64-bit platform with 4 KiB pages, an 11-word `struct stack_info`, one padding word, no frame
pointers, a 256-byte `Stack_threshold` and mappings rounded up to whole pages, built with
`backend` and run with `caml_fiber_wsz` set to `fiberWsz` (as a `uintnat`). -/
def samplePlatform (backend : Backend) (nativeCode : Bool) (fiberWsz : Nat) : Env where
  backend := backend
  nativeCode := nativeCode
  withFramePointers := false
  stackPaddingWord := 1
  stackCtxWords := 11
  pageShift := 12
  roundUpMappingSize len := (len + 4095) / 4096 * 4096
  fiberWsz := fiberWsz % wordModulus
  stackThreshold := 256
  refreshLocals _ info := ⟨info.localSp, info.localTop, info.localLimit⟩
  word_le_page := by decide
  page_lt_word := by decide
  info_le_page := by decide
  info_words := by decide
  roundUpMappingSize_ge len := by dsimp only; omega
  roundUpMappingSize_page len := ⟨(len + 4095) / 4096, Nat.mul_comm _ _⟩
  fiberWsz_lt := Nat.mod_lt _ (by decide)

/-- The byte length `alloc_for_stack` computes for `wosize` words does not wrap. -/
def Env.LengthFits (env : Env) (wosize : Nat) : Prop :=
  match env.backend with
  | .guardPages =>
      8 * (wosize + env.stackPaddingWord + stackHandlerWords) + 2 * env.pageSize < wordModulus
  | _ => 8 * (env.stackCtxWords + wosize + env.stackPaddingWord + 1 + stackHandlerWords) <
      wordModulus

@[simp]
theorem trailerSize_eq : trailerSize = 32 := by decide

theorem allocLength_eq {env : Env} {wosize : Nat}
    (fits : 8 * (env.stackCtxWords + wosize + 1 + stackHandlerWords) < wordModulus) :
    allocLength env wosize = 8 * (env.stackCtxWords + wosize + 1 + stackHandlerWords) := by
  unfold allocLength
  rw [Nat.mod_eq_of_lt (by omega)]
  omega

theorem roundUpP2_sixteen {x : Nat} (fits : x + 15 < wordModulus) :
    roundUpP2 x 16 = 16 * ((x + 15) / 16) :=
  @roundUpP2_eq x 4 (by decide) fits

theorem alignedHandler_bounds {env : Env} {si wosize : Nat}
    (fits : 8 * (si + env.stackCtxWords + wosize) + 15 < wordModulus) :
    si + env.stackCtxWords + wosize ≤ alignedHandler env si wosize ∧
      alignedHandler env si wosize ≤ si + env.stackCtxWords + wosize + 1 := by
  unfold alignedHandler
  rw [show 8 * si + 8 * env.stackCtxWords + 8 * wosize = 8 * (si + env.stackCtxWords + wosize)
    by omega, Nat.mod_eq_of_lt (by omega), roundUpP2_sixteen fits]
  omega

theorem allocLength_wrap (env : Env) (wosize : Nat) :
    allocLength env wosize = 8 * ((env.stackCtxWords + wosize + 5) % addressWords) := by
  unfold allocLength
  rw [show 8 * env.stackCtxWords + 8 * wosize + 8 + 8 * stackHandlerWords =
    8 * (env.stackCtxWords + wosize + 5) by simp only [stackHandlerWords]; omega,
    show wordModulus = 8 * addressWords from rfl, Nat.mul_mod_mul_left]

theorem allocForStack_inside {env : Env} {records : Stacks} (system : SystemAllocator env records)
    {wosize : Nat} {block : Block}
    (allocated : allocForStack env system.allocate wosize = some block) :
    ∃ words, FreshBlock records block.stack words ∧
      block.handler + stackHandlerWords ≤ block.stack + words := by
  unfold allocForStack at allocated
  generalize (wosize + env.stackPaddingWord) % wordModulus = padded at allocated
  split at allocated <;> obtain ⟨start, answered, rfl⟩ := Option.map_eq_some'.mp allocated <;>
    have fresh := system.fresh _ start answered <;> refine ⟨_, fresh, ?_⟩ <;>
    have low := fresh.1 <;> have inside := fresh.2.1 <;> simp only [stackHandlerWords] at low ⊢
  case h_2 =>
    have pageWords : 8 ∣ env.pageSize := Nat.pow_dvd_pow_iff_le_right'.mpr env.word_le_page
    obtain ⟨length, mapped⟩ := Nat.dvd_trans pageWords (env.roundUpMappingSize_page
      ((8 * padded + trailerSize + 2 * env.pageSize) % wordModulus))
    rw [← guardedLength] at mapped
    simp only [mapped, trailerSize_eq]
    omega
  all_goals
    rw [allocLength_wrap] at inside ⊢
    have wrapped : (8 * start + 8 * env.stackCtxWords + 8 * padded) % wordModulus =
        8 * (start - 5 + (env.stackCtxWords + padded + 5) % addressWords) := by
      rw [show 8 * start + 8 * env.stackCtxWords + 8 * padded =
        8 * (start - 5 + (env.stackCtxWords + padded + 5)) by omega,
        show wordModulus = 8 * addressWords from rfl, Nat.mul_mod_mul_left, ← Nat.add_mod_mod,
        Nat.mod_eq_of_lt (by omega)]
    unfold alignedHandler
    rw [wrapped, roundUpP2_sixteen (by rw [show wordModulus = 8 * addressWords from rfl]; omega)]
    omega

/-! ## The layout of a new stack -/

theorem Env.sixteen_dvd_pageSize (env : Env) : 16 ∣ env.pageSize := by
  have large : 2 ^ 4 ≤ 2 ^ env.pageShift := by
    have := env.info_le_page
    have := env.info_words
    omega
  exact Nat.pow_dvd_pow 2 ((Nat.pow_le_pow_iff_right (by omega)).mp large)

theorem alignedHandler_aligned {env : Env} {si wosize : Nat}
    (fits : 8 * (si + env.stackCtxWords + wosize) + 15 < wordModulus) :
    8 * alignedHandler env si wosize % 16 = 0 := by
  unfold alignedHandler
  rw [show 8 * si + 8 * env.stackCtxWords + 8 * wosize = 8 * (si + env.stackCtxWords + wosize)
    by omega, Nat.mod_eq_of_lt (show 8 * (si + env.stackCtxWords + wosize) < wordModulus by omega),
    roundUpP2_sixteen fits]
  omega

theorem guardedLength_bounds {env : Env} {wosize : Nat}
    (fits : 8 * wosize + trailerSize + 2 * env.pageSize < wordModulus) :
    8 * wosize + trailerSize + 2 * env.pageSize ≤ guardedLength env wosize ∧
      env.pageSize ∣ guardedLength env wosize := by
  unfold guardedLength
  rw [Nat.mod_eq_of_lt fits]
  exact ⟨env.roundUpMappingSize_ge _, env.roundUpMappingSize_page _⟩

theorem allocForStack_eq {env : Env} {allocate : Nat → Option Nat} {wosize : Nat} {block : Block}
    (fits : env.LengthFits wosize) (allocated : allocForStack env allocate wosize = some block) :
    (env.backend = .guardPages ∧
      allocate (guardedLength env (wosize + env.stackPaddingWord)) = some block.stack ∧
      block.handler =
        (8 * block.stack + guardedLength env (wosize + env.stackPaddingWord) - trailerSize) / 8) ∨
    (env.backend ≠ .guardPages ∧
      allocate (8 * (env.stackCtxWords + (wosize + env.stackPaddingWord) + 1 + stackHandlerWords)) =
        some block.stack ∧
      block.handler = alignedHandler env block.stack (wosize + env.stackPaddingWord)) := by
  unfold Env.LengthFits at fits
  unfold allocForStack at allocated
  rw [Nat.mod_eq_of_lt (show wosize + env.stackPaddingWord < wordModulus by
    unfold stackHandlerWords at fits; split at fits <;> omega)] at allocated
  have unguarded : ∀ {start}, env.backend ≠ .guardPages →
      allocate (allocLength env (wosize + env.stackPaddingWord)) = some start →
      allocate (8 * (env.stackCtxWords + (wosize + env.stackPaddingWord) + 1 + stackHandlerWords)) =
        some start := fun other answered => by
    rw [allocLength_eq] at answered
    · exact answered
    · revert fits
      unfold stackHandlerWords
      split <;> first | omega | simp_all
  split at allocated <;> rename_i backend <;>
    obtain ⟨start, answered, rfl⟩ := Option.map_eq_some'.mp allocated
  · exact .inr ⟨by simp [backend], unguarded (by simp [backend]) answered, rfl⟩
  · exact .inl ⟨backend, answered, rfl⟩
  · exact .inr ⟨by simp [backend], unguarded (by simp [backend]) answered, rfl⟩

theorem allocForStack_bounds {env : Env} {allocate : Nat → Option Nat}
    (memory : BackendMemory env allocate) {wosize : Nat} (fits : env.LengthFits wosize)
    {block : Block} (allocated : allocForStack env allocate wosize = some block) :
    ∃ len, allocate len = some block.stack ∧
      8 * (block.handler + stackHandlerWords) ≤ 8 * block.stack + len ∧
      env.stackBase block.stack + wosize + env.stackPaddingWord ≤ block.handler := by
  rcases allocForStack_eq fits allocated with
    ⟨guarded, answered, handler⟩ | ⟨unguarded, answered, handler⟩
  · unfold Env.LengthFits at fits
    simp only [guarded, stackHandlerWords] at fits
    obtain ⟨covers, ⟨pages, mapped⟩⟩ := @guardedLength_bounds env (wosize + env.stackPaddingWord)
      (by simp only [trailerSize_eq]; omega)
    obtain ⟨quarter, sixteen⟩ := env.sixteen_dvd_pageSize
    simp only [trailerSize_eq] at covers handler
    simp only [Env.stackBase, guarded, stackHandlerWords]
    rw [sixteen] at mapped covers ⊢
    rw [mapped] at covers handler
    exact ⟨_, answered, by omega, by omega⟩
  · have inside := memory.inside _ _ answered
    simp only [addressWords, stackHandlerWords] at inside
    obtain ⟨low, high⟩ := @alignedHandler_bounds env block.stack (wosize + env.stackPaddingWord)
      (by simp only [wordModulus]; omega)
    rw [← handler] at low high
    refine ⟨_, answered, ?_, ?_⟩ <;>
      simp only [Env.stackBase_of_unguarded unguarded, stackHandlerWords] <;> omega

theorem allocForStack_spec {env : Env} {records : Stacks} (system : SystemAllocator env records)
    {wosize : Nat} {block : Block} (fits : env.LengthFits wosize)
    (allocated : allocForStack env system.allocate wosize = some block) :
    ∃ words, FreshBlock records block.stack words ∧
      block.handler + stackHandlerWords ≤ block.stack + words ∧
      env.stackBase block.stack + wosize + env.stackPaddingWord ≤ block.handler := by
  obtain ⟨len, answered, inside, base⟩ := allocForStack_bounds system.memory fits allocated
  exact ⟨_, system.fresh _ _ answered, by omega, base⟩

/-- `alloc_for_stack` lays out what it allocates as `fiber.h` draws it: the handler 16-byte
aligned, its record inside the allocated bytes, at least `wosize` words between `Stack_base` and
`Stack_high = handler - Stack_padding_word`, and, under guard pages, the `struct stack_info` in the
first page and the `PROT_NONE` page right below `Stack_base`. -/
theorem alloc_for_stack_layout {env : Env} {allocate : Nat → Option Nat}
    (memory : BackendMemory env allocate) {wosize : Nat} (fits : env.LengthFits wosize)
    {block : Block} (allocated : allocForStack env allocate wosize = some block) :
    ∃ len, allocate len = some block.stack ∧ 8 * block.handler % 16 = 0 ∧
      8 * (block.handler + stackHandlerWords) ≤ 8 * block.stack + len ∧
      env.stackBase block.stack + wosize + env.stackPaddingWord ≤ block.handler ∧
      (env.backend = .guardPages →
        block.stack + env.stackCtxWords ≤ env.protectedStackPage block.stack ∧
        env.protectedStackPage block.stack + env.pageSize / 8 = env.stackBase block.stack) := by
  obtain ⟨len, answered, inside, base⟩ := allocForStack_bounds memory fits allocated
  have info := env.info_le_page
  obtain ⟨quarter, sixteen⟩ := env.sixteen_dvd_pageSize
  have pages : ∀ stack, env.backend = .guardPages → stack + env.stackCtxWords ≤
      env.protectedStackPage stack ∧ env.protectedStackPage stack + env.pageSize / 8 =
        env.stackBase stack := fun stack guarded => by
    simp only [Env.protectedStackPage, Env.stackBase, guarded]
    unfold Env.pageSize at sixteen ⊢
    omega
  refine ⟨len, answered, ?_, inside, base, pages block.stack⟩
  rcases allocForStack_eq fits allocated with
    ⟨guarded, answered, handler⟩ | ⟨unguarded, answered, handler⟩
  · unfold Env.LengthFits at fits
    simp only [guarded, stackHandlerWords] at fits
    obtain ⟨-, ⟨pages, mapped⟩⟩ := @guardedLength_bounds env (wosize + env.stackPaddingWord)
      (by simp only [trailerSize_eq]; omega)
    obtain ⟨base, aligned⟩ := memory.mappedAligned _ _ answered (by simp [guarded])
    simp only [trailerSize_eq] at handler
    rw [sixteen, show 16 * quarter / 8 = 2 * quarter by omega, Nat.mul_assoc] at aligned
    rw [sixteen, Nat.mul_assoc] at mapped
    rw [mapped] at handler
    omega
  · have inside := memory.inside _ _ answered
    simp only [addressWords, stackHandlerWords] at inside
    exact handler ▸ alignedHandler_aligned (by simp only [wordModulus]; omega)

/-- A backend that places every block at `start`, when it fits in the address space. -/
def placeAt (start len : Nat) : Option Nat :=
  if start + (len + 7) / 8 ≤ addressWords then some start else none

theorem placeAt_memory {env : Env} {start : Nat} (aligned : env.pageSize / 8 ∣ start) :
    BackendMemory env (placeAt start) where
  inside len start' placed := by
    unfold placeAt at placed
    split at placed
    · cases placed
      assumption
    · cases placed
  mappedAligned len start' placed _ := by
    unfold placeAt at placed
    split at placed
    · cases placed
      exact aligned
    · cases placed

/-- The guard-page build of the sample platform. -/
def guardedPlatform : Env := samplePlatform .guardPages true 64

/-- A stack of `64` words from the guard-page backend, mapped at `4096`: three pages, the handler
at word `5628`, `Stack_base` two pages above the mapping. -/
theorem guarded_stack_layout :
    BackendMemory guardedPlatform (placeAt 4096) ∧ guardedPlatform.LengthFits 64 ∧
      allocForStack guardedPlatform (placeAt 4096) 64 = some ⟨4096, 5628, 12288⟩ ∧
      ∃ len, placeAt 4096 len = some 4096 ∧ 8 * 5628 % 16 = 0 ∧
        8 * (5628 + stackHandlerWords) ≤ 8 * 4096 + len ∧
        guardedPlatform.stackBase 4096 + 64 + guardedPlatform.stackPaddingWord ≤ 5628 ∧
        (guardedPlatform.backend = .guardPages →
          4096 + guardedPlatform.stackCtxWords ≤ guardedPlatform.protectedStackPage 4096 ∧
          guardedPlatform.protectedStackPage 4096 + guardedPlatform.pageSize / 8 =
            guardedPlatform.stackBase 4096) :=
  have memory : BackendMemory guardedPlatform (placeAt 4096) := placeAt_memory (by decide)
  have fits : guardedPlatform.LengthFits 64 := by
    simp [Env.LengthFits, guardedPlatform, samplePlatform, stackHandlerWords, wordModulus,
      Env.pageSize]
  have allocated : allocForStack guardedPlatform (placeAt 4096) 64 = some ⟨4096, 5628, 12288⟩ := rfl
  ⟨memory, fits, allocated, alloc_for_stack_layout memory fits allocated⟩

/-! ## The initial size of a stack -/

/-- What `caml_get_init_stack_wsize` sizes a stack for. -/
inductive StackSizeContext where
  /-- `STACK_SIZE_MAIN`. -/
  | main
  /-- `STACK_SIZE_THREAD`. -/
  | thread
  /-- `STACK_SIZE_FIBER`. -/
  | fiber
  deriving DecidableEq, Repr

/-- The startup parameters and the huge-page size `caml_get_init_stack_wsize` reads. -/
structure InitStackParams where
  /-- `caml_init_main_stack_wsz`, set by `-Xmain_stack_size=`. -/
  mainStackWsz : Nat
  /-- `caml_init_thread_stack_wsz`, set by `-Xthread_stack_size=`. -/
  threadStackWsz : Nat
  /-- `caml_init_fiber_stack_wsz`, set by `-Xfiber_stack_size=`. -/
  fiberStackWsz : Nat
  /-- `Stack_init_bsize`. -/
  stackInitBsize : Nat
  /-- `caml_plat_hugepagesize`, in bytes, `0` without huge pages. -/
  hugePageSize : Nat
  deriving DecidableEq, Repr

/-- The `switch (context)` of `caml_get_init_stack_wsize`: under guard pages the startup parameter
of the context, otherwise `Stack_init_bsize` for the main stack and threads and twice
`Stack_threshold` for fibers, in words. -/
def initStackWsize (env : Env) (params : InitStackParams) (context : StackSizeContext) : Nat :=
  if env.backend = .guardPages then
    match context with
    | .main => params.mainStackWsz
    | .thread => params.threadStackWsz
    | .fiber => params.fiberStackWsz
  else
    match context with
    | .main | .thread => params.stackInitBsize / 8
    | .fiber => env.stackThreshold * 2 / 8

/-- `caml_get_init_stack_wsize(context)` under the limit `caml_max_stack_wsize`: the size of the
context capped by the limit and, past a huge page, rounded down to whole huge pages
(`stack_wsize &= ~(Wsize_bsize(caml_plat_hugepagesize) - 1)`) less three pages, in `uintnat`. -/
def camlGetInitStackWsize (env : Env) (params : InitStackParams) (maxStackWsize : Nat)
    (context : StackSizeContext) : Nat :=
  let stackWsize := if initStackWsize env params context < maxStackWsize
    then initStackWsize env params context else maxStackWsize
  if 0 < params.hugePageSize ∧ params.hugePageSize / 8 < stackWsize then
    ((stackWsize &&& (wordModulus - params.hugePageSize / 8)) + wordModulus -
      3 * (env.pageSize / 8)) % wordModulus
  else stackWsize

theorem camlGetInitStackWsize_eq {env : Env} {params : InitStackParams} {maxStackWsize shift : Nat}
    (limit : maxStackWsize < wordModulus)
    (hugeWords : 0 < params.hugePageSize →
      params.hugePageSize / 8 = 2 ^ shift ∧ 3 * (env.pageSize / 8) ≤ 2 ^ shift)
    (context : StackSizeContext) :
    camlGetInitStackWsize env params maxStackWsize context =
      if 0 < params.hugePageSize ∧
          params.hugePageSize / 8 < min (initStackWsize env params context) maxStackWsize then
        2 ^ shift * (min (initStackWsize env params context) maxStackWsize / 2 ^ shift) -
          3 * (env.pageSize / 8)
      else min (initStackWsize env params context) maxStackWsize := by
  unfold camlGetInitStackWsize
  have capped : (if initStackWsize env params context < maxStackWsize then
      initStackWsize env params context else maxStackWsize) =
      min (initStackWsize env params context) maxStackWsize := by
    split <;> omega
  simp only [capped]
  have capBound := Nat.min_le_right (initStackWsize env params context) maxStackWsize
  generalize min (initStackWsize env params context) maxStackWsize = wsize at *
  split_ifs with huge
  · obtain ⟨words, pages⟩ := hugeWords huge.1
    rw [words] at huge ⊢
    have fits : wsize < wordModulus := by omega
    have small : shift ≤ 64 := by
      by_contra large
      have := Nat.pow_lt_pow_right (by omega : 1 < 2) (Nat.lt_of_not_le large)
      unfold wordModulus at fits
      omega
    rw [mask_eq small fits]
    have whole : 2 ^ shift ≤ 2 ^ shift * (wsize / 2 ^ shift) :=
      Nat.le_mul_of_pos_right _ (Nat.div_pos (Nat.le_of_lt huge.2) (Nat.two_pow_pos shift))
    have below : 2 ^ shift * (wsize / 2 ^ shift) ≤ wsize := Nat.mul_div_le wsize (2 ^ shift)
    rw [Nat.sub_add_comm (by omega), Nat.add_mod_right, Nat.mod_eq_of_lt (by omega)]
  · rfl

/-- A startup under guard pages with a main stack of `2^20` words, two-megabyte huge pages and a
limit of `2^27` words. -/
def hugePageStartup : InitStackParams := ⟨2 ^ 20, 2 ^ 20, 2 ^ 13, 2 ^ 15, 2 ^ 21⟩

/-- The main stack of `2^20` words is four huge pages less three pages. -/
example : camlGetInitStackWsize guardedPlatform hugePageStartup (2 ^ 27) .main = 2 ^ 20 - 1536 := by
  decide

end FiberRuntime
