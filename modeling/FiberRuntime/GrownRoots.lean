import FiberRuntime.Realloc
import FiberRuntime.Roots

/-!
# What the collector sees of a grown stack

In bytecode, `caml_try_realloc_stack` copies the live words of the current stack to the top of the
new stack, gives it the old handlers and parent, and rewrites no word of the stacks.  The
collector cannot tell: `caml_scan_stack` from the new current stack reports the same values in the
same order as from the old one, each slot of the grown stack moved by
`Stack_high(new) - Stack_high(old)` words and each slot of its parents where it was.
-/

namespace FiberRuntime

open Store

/-- The call for the same value, its slot moved from a stack whose `Stack_high` is `high` to one
whose `Stack_high` is `high'`. -/
def Root.moved (high high' : Nat) (root : Root) : Root := ⟨root.value, root.slot + high' - high⟩

/-! ## The slots of a stack -/

theorem stackSlots_congr {env : Env} {mem mem' : Nat → Nat} {info : StackInfo}
    (same : ∀ p, info.sp ≤ p → p < env.stackHigh info → mem' p = mem p) :
    stackSlots env mem' info = stackSlots env mem info := by
  unfold stackSlots
  congr 1
  refine List.map_congr_left fun p listed => ?_
  rw [List.mem_range'_1] at listed
  rw [same p listed.1 (by omega)]

theorem handler_moved {env : Env} {old new : StackInfo}
    (padded : env.stackPaddingWord ≤ old.handler) (padded' : env.stackPaddingWord ≤ new.handler)
    (k : Nat) : old.handler + k + env.stackHigh new - env.stackHigh old = new.handler + k := by
  unfold Env.stackHigh
  omega

theorem stackSlots_moved {env : Env} {mem mem' : Nat → Nat} {old new : StackInfo}
    (padded : env.stackPaddingWord ≤ old.handler) (padded' : env.stackPaddingWord ≤ new.handler)
    (room : env.stackHigh old - old.sp ≤ env.stackHigh new)
    (sp : new.sp = old.sp + env.stackHigh new - env.stackHigh old)
    (copied : ∀ x, old.sp ≤ x → x < env.stackHigh old →
      mem' (x + env.stackHigh new - env.stackHigh old) = mem x)
    (handlers : new.handleValue = old.handleValue ∧ new.handleExn = old.handleExn ∧
      new.handleEffect = old.handleEffect) :
    stackSlots env mem' new =
      (stackSlots env mem old).map (Root.moved (env.stackHigh old) (env.stackHigh new)) := by
  obtain ⟨value, exn, effect⟩ := handlers
  unfold stackSlots
  rw [List.map_append, List.map_map]
  congr 1
  · rw [List.range'_eq_map_range, List.range'_eq_map_range, List.map_map, List.map_map,
      show env.stackHigh new - new.sp = env.stackHigh old - old.sp by omega]
    refine List.map_congr_left fun i listed => ?_
    rw [List.mem_range] at listed
    have moved : new.sp + i = old.sp + i + env.stackHigh new - env.stackHigh old := by omega
    have word := copied (old.sp + i) (Nat.le_add_right _ _) (by omega)
    simp only [Function.comp, Root.moved, moved, word]
  · have moved := handler_moved padded padded'
    have moved₀ := moved 0
    rw [Nat.add_zero, Nat.add_zero] at moved₀
    simp only [List.map, Root.moved, value, exn, effect, moved, moved₀]

theorem stackRoots_moved {env : Env} {onlyYoung : Bool} {isCode : Nat → Bool}
    {mem mem' : Nat → Nat} {old new : StackInfo}
    (slots : stackSlots env mem' new =
      (stackSlots env mem old).map (Root.moved (env.stackHigh old) (env.stackHigh new))) :
    stackRoots env onlyYoung isCode mem' new =
      (stackRoots env onlyYoung isCode mem old).map (Root.moved (env.stackHigh old) (env.stackHigh new)) := by
  rw [stackRoots, slots, List.filter_map]
  rfl

/-! ## The copy of a growth -/

namespace Regrowth

variable {env : Env} {rt rt' : Runtime} {domain requiredSpace fuel wsize newStack : Nat}
  {old new : StackInfo} {rewritten : Domain × (Nat → Nat)}

theorem copied_bytecode
    (growth : Regrowth env rt rt' domain requiredSpace fuel old wsize newStack new rewritten)
    (bytecode : env.nativeCode = false)
    (unframed : ∀ link ∈ (rt.domains domain).cStack, link.stack = (rt.domains domain).currentStack →
      env.withFramePointers = false)
    (apart : (relocation env (rt.domains domain).currentStack old new).Apart old.sp)
    (small : env.stackHigh old - old.sp < 2 ^ 31) :
    Relocation.Relocated (relocation env (rt.domains domain).currentStack old new) old.sp rt.mem []
      rt'.mem := by
  obtain ⟨cache, rewrote⟩ := growth.rewrote
  have links : ∀ link ∈ ({ rt.domains domain with stackCache := cache } : Domain).cStack,
      link.stack = (rt.domains domain).currentStack → env.withFramePointers = false := unframed
  rw [growth.mem]
  exact (Relocation.rewritePointers_bytecode apart bytecode links (apart.copied small rt.mem)
    (show _ = some (rewritten.1, rewritten.2) from rewrote)).2

theorem others_kept
    (growth : Regrowth env rt rt' domain requiredSpace fuel old wsize newStack new rewritten)
    {lists' : Nat → Nat → List Nat} (inv' : Invariant env rt' lists')
    (apart : (relocation env (rt.domains domain).currentStack old new).Apart old.sp)
    (rel : Relocation.Relocated (relocation env (rt.domains domain).currentStack old new) old.sp
      rt.mem [] rt'.mem)
    (usedFits : env.stackBase newStack + (env.stackHigh old - old.sp) ≤ env.stackHigh new)
    {stack : Nat} {info : StackInfo} (found : rt.records stack = some info)
    (alive : rt.live stack = true) (notOld : stack ≠ (rt.domains domain).currentStack)
    (above : env.stackBase stack ≤ info.sp) :
    rt'.records stack = some info ∧
      ∀ p, info.sp ≤ p → p < env.stackHigh info → rt'.mem p = rt.mem p := by
  have notNew : stack ≠ newStack := by
    rintro rfl
    rw [growth.fresh] at alive
    cases alive
  have kept : rt'.records stack = some info := (growth.others stack notOld notNew).trans found
  have base : ∀ stack, env.stackBase stack = stack + env.stackCtxWords :=
    Env.stackBase_of_unguarded (by rw [growth.plain]; decide)
  have room : env.stackHigh old - old.sp ≤ env.stackHigh new := apart.room
  have start := apart.move_eq (Nat.le_refl old.sp)
  refine ⟨kept, fun p low high => rel.outside p ?_⟩
  rw [start]
  show ¬(old.sp + env.stackHigh new - env.stackHigh old ≤ p ∧ p < env.stackHigh new)
  rcases inv'.separate _ _ _ _ growth.record kept notNew.symm with before | after
  · have newBelow : env.stackHigh new ≤ new.handler := Nat.sub_le _ _
    simp only [StackInfo.extentEnd, movedRecord] at before
    rw [base] at above
    omega
  · have below : env.stackHigh info ≤ info.handler := Nat.sub_le _ _
    unfold StackInfo.extentEnd at after
    rw [base] at usedFits
    omega

end Regrowth

/-! ## The collector's view of a growth -/

/-- In bytecode, growing the current stack is invisible to the collector.  Take a successful
`caml_try_realloc_stack` in a reachable state, under a limit whose doubled byte length fits, on a
current stack whose live region lies above its `Stack_base` and is shorter than `2^31` words, with
no `c_stack` link keeping frame pointers on it, and whose
parent chain reaches `NULL` through live stacks with `sp` above their `Stack_base`.  Then
`caml_scan_stack`, with an iteration for each stack and one for `NULL`, passes to `f` from the new
current stack the values it passed from the old one, in the same order, each slot of the grown stack
(its words from `sp` and its three handlers) moved by `Stack_high(new) - Stack_high(old)` words and
each slot of its parents unchanged. -/
theorem growth_keeps_roots {env : Env} {rt rt' : Runtime} {fuel domain requiredSpace : Nat}
    {old : StackInfo} {rest : List (Nat × StackInfo)}
    (reachable : Reachable env rt) (system : SystemAllocator env rt.records)
    (bytecode : env.nativeCode = false)
    (live : rt.live (rt.domains domain).currentStack = true)
    (linked : ParentChain rt.records (some (rt.domains domain).currentStack)
      (((rt.domains domain).currentStack, old) :: rest))
    (parents : ∀ link ∈ rest, rt.live link.1 = true ∧ env.stackBase link.1 ≤ link.2.sp)
    (spAbove : env.stackBase (rt.domains domain).currentStack < old.sp)
    (spBelow : old.sp ≤ env.stackHigh old) (small : env.stackHigh old - old.sp < 2 ^ 31)
    (fits : env.LengthFits (2 * rt.maxStackWsize))
    (unframed : ∀ link ∈ (rt.domains domain).cStack,
      link.stack = (rt.domains domain).currentStack → env.withFramePointers = false)
    (grown : camlTryReallocStack env system.allocate fuel rt domain requiredSpace =
      some (rt', true))
    (onlyYoung : Bool) (isCode : Nat → Bool) {scanFuel : Nat} (enough : rest.length + 1 < scanFuel) :
    ∃ new restRoots, rt'.records (rt'.domains domain).currentStack = some new ∧
      camlScanStack env onlyYoung isCode rt.mem rt.records scanFuel
          (some (rt.domains domain).currentStack) [] =
        some (stackRoots env onlyYoung isCode rt.mem old ++ restRoots) ∧
      camlScanStack env onlyYoung isCode rt'.mem rt'.records scanFuel
          (some (rt'.domains domain).currentStack) [] =
        some ((stackRoots env onlyYoung isCode rt.mem old).map
          (Root.moved (env.stackHigh old) (env.stackHigh new)) ++ restRoots) := by
  obtain ⟨lists, inv⟩ := reachable.invariant
  obtain ⟨lists', inv'⟩ := inv.tryReallocStack system live grown
  have nodup := linked.nodup
  cases linked with
  | link found up =>
  obtain ⟨old', wsize, newStack, new, rewritten, growth⟩ := inv.regrowth system live grown
  obtain rfl : old = old' := Option.some.inj (found.symm.trans growth.current)
  have apart := growth.relocation_apart fits spAbove spBelow
  have rel := growth.copied_bytecode bytecode unframed apart small
  have usedFits := growth.used_fits fits spAbove.le spBelow
  have room : env.stackHigh old - old.sp ≤ env.stackHigh new := apart.room
  have base : ∀ stack, env.stackBase stack = stack + env.stackCtxWords :=
    Env.stackBase_of_unguarded (by rw [growth.plain]; decide)
  have words := env.info_words
  have moved : ∀ x, old.sp ≤ x → x < env.stackHigh old →
      rt'.mem (x + env.stackHigh new - env.stackHigh old) = rt.mem x := fun x low high => by
    simpa [apart.move_eq low] using rel.live x low high
  have kept : ∀ link ∈ rest, rt'.records link.1 = some link.2 ∧
      ∀ p, link.2.sp ≤ p → p < env.stackHigh link.2 → rt'.mem p = rt.mem p :=
    fun link listed => growth.others_kept inv' apart rel usedFits (up.recorded link listed)
      (parents link listed).1
      (fun same => (List.nodup_cons.mp nodup).1 (List.mem_map.mpr ⟨link, listed, same⟩))
      (parents link listed).2
  obtain ⟨info, initialised⟩ := growth.initialised
  have handlers : new.handleValue = old.handleValue ∧ new.handleExn = old.handleExn ∧
      new.handleEffect = old.handleEffect := by
    rw [initialised]
    exact ⟨rfl, rfl, rfl⟩
  have slots := @stackSlots_moved env rt.mem rt'.mem old
    (movedRecord env (rt.domains domain).currentStack old new (stackUsed env old))
    (by rw [base] at spAbove; unfold Env.stackHigh at spBelow; omega)
    (by show env.stackPaddingWord ≤ new.handler; rw [base] at usedFits; unfold Env.stackHigh at usedFits
        omega)
    room
    (by rw [movedRecord_sp, stackUsed_of_small spBelow small, offsetBy_neg, stackHigh_movedRecord]
        omega)
    moved handlers
  refine ⟨_, rest.flatMap fun link => stackRoots env onlyYoung isCode rt.mem link.2,
    growth.switched ▸ growth.record, ?_, ?_⟩
  · rw [(ParentChain.link found up).camlScanStack_eq (by simpa using enough)]
    simp
  · have linked' : ParentChain rt'.records (some newStack)
        ((newStack, movedRecord env (rt.domains domain).currentStack old new (stackUsed env old)) ::
          rest) :=
      .link growth.record (up.congr fun link listed => (kept link listed).1.trans
        (up.recorded link listed).symm)
    rw [growth.switched, linked'.camlScanStack_eq (by simpa using enough), List.nil_append,
      List.flatMap_cons, stackRoots_moved slots, stackHigh_movedRecord]
    congr 2
    exact List.flatMap_congr fun link listed => by
      simp only [stackRoots, stackSlots_congr (kept link listed).2]

/-- Growing the running fiber's stack by a word in bytecode: the scan of the new stack reports the
scan of the old one, every slot moved to the new stack. -/
theorem running_fiber_growth_keeps_roots :
    ∃ rt', camlTryReallocStack (samplePlatform .plain false 64) (placeAt 8192) 4
        (fiberRunning (samplePlatform .plain false 64)) 0 1 = some (rt', true) ∧
      ∃ new restRoots, rt'.records (rt'.domains 0).currentStack = some new ∧
        camlScanStack (samplePlatform .plain false 64) false (fun _ => false)
            (fiberRunning (samplePlatform .plain false 64)).mem
            (fiberRunning (samplePlatform .plain false 64)).records 2
            (some ((fiberRunning (samplePlatform .plain false 64)).domains 0).currentStack) [] =
          some (stackRoots (samplePlatform .plain false 64) false (fun _ => false)
            (fiberRunning (samplePlatform .plain false 64)).mem runningRecord ++ restRoots) ∧
        camlScanStack (samplePlatform .plain false 64) false (fun _ => false) rt'.mem rt'.records 2
            (some (rt'.domains 0).currentStack) [] =
          some ((stackRoots (samplePlatform .plain false 64) false (fun _ => false)
            (fiberRunning (samplePlatform .plain false 64)).mem runningRecord).map
              (Root.moved ((samplePlatform .plain false 64).stackHigh runningRecord)
                ((samplePlatform .plain false 64).stackHigh new)) ++ restRoots) := by
  obtain ⟨rt', grown⟩ : ∃ rt', camlTryReallocStack (samplePlatform .plain false 64) (placeAt 8192) 4
      (fiberRunning (samplePlatform .plain false 64)) 0 1 = some (rt', true) := ⟨_, rfl⟩
  have fits : (samplePlatform .plain false 64).LengthFits (2 * 1024) := by
    simp [Env.LengthFits, samplePlatform, stackHandlerWords, wordModulus]
  exact ⟨rt', grown, growth_keeps_roots
    (@fiberRunning_reachable (samplePlatform .plain false 64) rfl (by decide) (by decide))
    (placeAbove _ rfl (by decide) 8192 (by decide) (by decide) _ _ _ _) rfl (by decide)
    (.link (fiberRunning_current _) .null) (fun _ listed => absurd listed (List.not_mem_nil _))
    (by decide) (by decide) (by decide) fits (fun _ _ _ => rfl) grown false
    (fun _ => false) (by decide)⟩

end FiberRuntime
