import FiberRuntime.Realloc

/-!
# Chains of stacks

A continuation holds a chain of stacks linked through `handler->parent`: the stack the fiber was
suspended on first, the stacks of the handlers around it after it, and last the outermost, whose
parent is `NULL`.  This file models `caml_continuation_use_noexc` as one domain runs it, the walk of
`caml_continuation_use_and_update_handler_noexc` to the outermost stack, and what
`caml_drop_continuation` releases of a chain.
-/

namespace FiberRuntime

open Store

/-- The stacks from `first` along their `parent` links, with their records, up to `NULL`. -/
inductive ParentChain (records : Stacks) : Option Nat → List (Nat × StackInfo) → Prop
  /-- `NULL` ends the chain. -/
  | null : ParentChain records none []
  /-- A recorded stack, then the chain from its parent. -/
  | link {stack : Nat} {info : StackInfo} {rest : List (Nat × StackInfo)}
      (found : records stack = some info) (up : ParentChain records info.parent rest) :
      ParentChain records (some stack) ((stack, info) :: rest)

namespace ParentChain

variable {records : Stacks}

theorem unique {first : Option Nat} {chain chain' : List (Nat × StackInfo)}
    (linked : ParentChain records first chain) (linked' : ParentChain records first chain') :
    chain = chain' := by
  induction linked generalizing chain' with
  | null => cases linked'; rfl
  | link found _ induction =>
      cases linked' with
      | link found' up' =>
          rw [found] at found'
          cases found'
          rw [induction up']

theorem suffix {first : Option Nat} {chain : List (Nat × StackInfo)}
    (linked : ParentChain records first chain) :
    ∀ link ∈ chain, ∃ tail, ParentChain records (some link.1) tail ∧ tail <:+ chain := by
  induction linked with
  | null => intro _ none; cases none
  | link found up induction =>
      intro link listed
      rcases List.mem_cons.mp listed with rfl | listed
      · exact ⟨_, .link found up, List.suffix_refl _⟩
      · obtain ⟨tail, linked, suffix⟩ := induction link listed
        exact ⟨tail, linked, suffix.trans (List.suffix_cons _ _)⟩

theorem nodup {first : Option Nat} {chain : List (Nat × StackInfo)}
    (linked : ParentChain records first chain) : (chain.map Prod.fst).Nodup := by
  induction linked with
  | null => exact List.nodup_nil
  | link found up induction =>
      refine List.nodup_cons.mpr ⟨fun again => ?_, induction⟩
      obtain ⟨link, listed, same⟩ := List.mem_map.mp again
      obtain ⟨tail, linked, suffix⟩ := up.suffix link listed
      rw [same] at linked
      have shorter := suffix.length_le
      rw [← (ParentChain.link found up).unique linked, List.length_cons] at shorter
      omega

theorem recorded {first : Option Nat} {chain : List (Nat × StackInfo)}
    (linked : ParentChain records first chain) : ∀ link ∈ chain, records link.1 = some link.2 := by
  induction linked with
  | null => intro _ none; cases none
  | link found _ induction =>
      intro link listed
      rcases List.mem_cons.mp listed with rfl | listed
      · exact found
      · exact induction link listed

theorem congr {records' : Stacks} {first : Option Nat} {chain : List (Nat × StackInfo)}
    (linked : ParentChain records first chain)
    (same : ∀ link ∈ chain, records' link.1 = records link.1) : ParentChain records' first chain := by
  induction linked with
  | null => exact .null
  | link found _ induction =>
      exact .link ((same _ (.head _)).trans found)
        (induction fun link listed => same link (.tail _ listed))

end ParentChain

/-! ## A continuation over two stacks -/

/-- The first fiber's stack at `4096`, then a second stack of `64` words, which the backend places
at `8192`. -/
def twoStacks : Runtime :=
  (camlAllocStackNoexc (samplePlatform .plain true 64) (placeAt 8192)
    (fiberAllocated (samplePlatform .plain true 64) 1024 64).1 0 64 0 0 0 0).1

/-- The record of the stack at `4096`, linked under the stack at `8192`. -/
def innerRecord : StackInfo := ⟨4171, none, 4172, 0, 0, 0, some 8192, 0, 0, 0, none, 0, none, 0⟩

/-- The record of the stack at `8192`. -/
def outerRecord : StackInfo := ⟨8267, none, 8268, 0, 0, 0, none, 0, 0, 0, none, 0, none, 0⟩

/-- A fiber suspended on the stack at `4096` inside a handler that runs on the stack at `8192`: the
code around the store links the first stack under the second and files the chain in continuation
`0`. -/
def suspendedChain : Runtime :=
  { twoStacks.setStack 4096 innerRecord with conts := Function.update twoStacks.conts 0 (some 4096) }

theorem twoStacks_reachable : Reachable (samplePlatform .plain true 64) twoStacks := by
  have placed : (fiberAllocated (samplePlatform .plain true 64) 1024 64).2 = some 4096 := by decide
  obtain ⟨_, records⟩ := fiberAllocated_records placed
  have first : (fiberAllocated (samplePlatform .plain true 64) 1024 64).1.records 4096 =
      some ⟨4171, none, 4172, 0, 0, 0, none, 0, 0, 0, none, 0, none, 0⟩ := by decide
  refine .step (fiberAllocated_reachable rfl 1024 64)
    (.allocStackNoexc (placeAtAbove _ 8192 _ (by decide) (fun stack info found => ?_) rfl) 64 0 0 0 0
      (Option.ne_none_iff_exists'.mpr ⟨_, rfl⟩))
  by_cases same : stack = 4096
  · subst same
    rw [first] at found
    cases found
    decide
  · rw [records, Function.update_noteq same] at found
    cases found

theorem suspendedChain_reachable : Reachable (samplePlatform .plain true 64) suspendedChain :=
  .step twoStacks_reachable (.mutator ((Frame.setStack (by decide)
    (show twoStacks.records 4096 = some ⟨4171, none, 4172, 0, 0, 0, none, 0, 0, 0, none, 0, none, 0⟩
      by decide) (by decide)).trans (Frame.of_eq rfl rfl rfl)))

theorem suspendedChain_linked :
    ParentChain suspendedChain.records (some 4096) [(4096, innerRecord), (8192, outerRecord)] :=
  .link (by decide) (.link (by decide) .null)

/-! ## Taking a chain and re-delimiting it -/

/-- `caml_continuation_use_noexc(cont)` as one domain runs it: the chain in the slot, and the slot
left empty.  Darkening the continuation while marking changes nothing modelled here, and the race
between domains is the subject of `Continuation`. -/
def camlContinuationUseNoexc (rt : Runtime) (cont : Nat) : Runtime × Option Nat :=
  ({ rt with conts := Function.update rt.conts cont none }, rt.conts cont)

/-- The loop `while (Stack_parent(stk) != NULL) stk = Stack_parent(stk)`, reading at most `fuel`
records: the outermost stack of the chain from `stack`, with its record. -/
def outermostStack (records : Stacks) : Nat → Nat → Option (Nat × StackInfo)
  | 0, _ => none
  | fuel + 1, stack =>
      match records stack with
      | none => none
      | some info =>
          match info.parent with
          | none => some (stack, info)
          | some parent => outermostStack records fuel parent

/-- `caml_continuation_use_and_update_handler_noexc(cont, hval, hexn, heff)`, its walk reading at
most `fuel` records: the state after it and the chain it returns, `none` for `NULL`. -/
def camlContinuationUseAndUpdateHandlerNoexc (fuel : Nat) (rt : Runtime)
    (cont hval hexn heff : Nat) : Option (Runtime × Option Nat) :=
  match camlContinuationUseNoexc rt cont with
  | (rt, none) => some (rt, none)
  | (rt, some stack) =>
      (outermostStack rt.records fuel stack).map fun outermost =>
        (rt.setStack outermost.1
          { outermost.2 with handleValue := hval, handleExn := hexn, handleEffect := heff },
          some stack)

theorem ParentChain.outermost {records : Stacks} {first : Option Nat}
    {chain : List (Nat × StackInfo)} (linked : ParentChain records first chain) :
    ∀ {stack fuel}, first = some stack → chain.length ≤ fuel →
      outermostStack records fuel stack = chain.getLast? := by
  induction linked with
  | null => intro _ _ none; cases none
  | @link stack info rest found up induction =>
      intro stack' fuel same enough
      cases same
      cases fuel with
      | zero => simp at enough
      | succ fuel =>
          rw [outermostStack, found]
          dsimp only
          cases parent : info.parent with
          | none =>
              rw [parent] at up
              cases up
              rfl
          | some next =>
              rw [parent] at up induction
              dsimp only
              cases up with
              | link found' up' =>
                  rw [@induction next fuel rfl (by simp only [List.length_cons] at enough ⊢; omega),
                    List.getLast?_cons_cons]

/-- `caml_continuation_use_and_update_handler_noexc` on a slot holding a chain that reaches
`NULL`, reading a record per stack of it, returns the chain's first stack, empties the slot and
gives the handler triple to the last stack alone, whose `sp`, parent and other fields stay, with no
other stack and no memory touched; on an empty slot it returns `NULL` and changes nothing. -/
theorem use_and_update_handler_outermost {rt : Runtime} {cont fuel hval hexn heff : Nat} :
    (rt.conts cont = none →
      camlContinuationUseAndUpdateHandlerNoexc fuel rt cont hval hexn heff = some (rt, none)) ∧
    ∀ stack chain, rt.conts cont = some stack → ParentChain rt.records (some stack) chain →
      chain.length ≤ fuel →
      ∃ last info, chain.getLast? = some (last, info) ∧
        camlContinuationUseAndUpdateHandlerNoexc fuel rt cont hval hexn heff =
          some ({ rt with conts := Function.update rt.conts cont none }.setStack last
            { info with handleValue := hval, handleExn := hexn, handleEffect := heff }, some stack) := by
  refine ⟨fun empty => ?_, fun stack chain slot linked enough => ?_⟩
  · have emptied : Function.update rt.conts cont none = rt.conts :=
      Function.update_eq_self_iff.mpr empty.symm
    simp only [camlContinuationUseAndUpdateHandlerNoexc, camlContinuationUseNoexc, empty, emptied]
  · obtain ⟨outermost, last⟩ : ∃ outermost, chain.getLast? = some outermost := by
      cases linked
      exact ⟨_, List.getLast?_eq_getLast _ (List.cons_ne_nil _ _)⟩
    refine ⟨outermost.1, outermost.2, last, ?_⟩
    simp only [camlContinuationUseAndUpdateHandlerNoexc, camlContinuationUseNoexc, slot]
    rw [linked.outermost rfl enough, last]
    rfl

/-- Re-delimiting the suspended fiber gives the new handlers to the stack at `8192`. -/
theorem suspended_chain_redelimited :
    suspendedChain.conts 0 = some 4096 ∧
      ParentChain suspendedChain.records (some 4096) [(4096, innerRecord), (8192, outerRecord)] ∧
      [(4096, innerRecord), (8192, outerRecord)].length ≤ 2 ∧
      ∃ last info, [(4096, innerRecord), (8192, outerRecord)].getLast? = some (last, info) ∧
        camlContinuationUseAndUpdateHandlerNoexc 2 suspendedChain 0 5 7 9 =
          some ({ suspendedChain with conts := Function.update suspendedChain.conts 0 none }.setStack
            last { info with handleValue := 5, handleExn := 7, handleEffect := 9 }, some 4096) :=
  have slot : suspendedChain.conts 0 = some 4096 := by decide
  ⟨slot, suspendedChain_linked, by decide,
    use_and_update_handler_outermost.2 4096 _ slot suspendedChain_linked (by decide)⟩

/-! ## Dropping a chain -/

/-- `caml_drop_continuation` on a slot holding a chain that reaches `NULL` empties the slot and
releases the chain's first stack, as `caml_free_stack` does, and that stack alone: every other
stack of the chain keeps its record and stays as live as it was.  On an empty slot it raises
`Continuation_already_resumed` and changes nothing. -/
theorem drop_continuation_frees_first {rt : Runtime} {domain cont : Nat} :
    (rt.conts cont = none →
      camlDropContinuation rt domain cont = (rt, .error .continuationAlreadyResumed)) ∧
    ∀ stack info rest, rt.conts cont = some stack →
      ParentChain rt.records (some stack) ((stack, info) :: rest) →
      (camlDropContinuation rt domain cont).2 = .ok () ∧
      Freed { rt with conts := Function.update rt.conts cont none }
        (camlDropContinuation rt domain cont).1 domain stack info ∧
      ∀ link ∈ rest, (camlDropContinuation rt domain cont).1.records link.1 = rt.records link.1 ∧
        (camlDropContinuation rt domain cont).1.live link.1 = rt.live link.1 := by
  refine ⟨fun empty => by simp [camlDropContinuation, empty],
    fun stack info rest slot linked => ?_⟩
  have found : rt.records stack = some info := by cases linked; assumption
  have freed := @camlFreeStack_freed { rt with conts := Function.update rt.conts cont none } domain
    stack info found
  have first := List.nodup_cons.mp linked.nodup
  have dropped : camlDropContinuation rt domain cont =
      (camlFreeStack { rt with conts := Function.update rt.conts cont none } domain stack, .ok ()) := by
    simp only [camlDropContinuation, slot]
  rw [dropped]
  refine ⟨rfl, freed, fun link listed => ?_⟩
  have other : link.1 ≠ stack := fun same => first.1 (List.mem_map.mpr ⟨link, listed, same⟩)
  exact ⟨freed.others _ other, by rw [freed.live, Function.update_noteq other]⟩

/-- Dropping the suspended fiber of the two-stack chain reports success and frees its inner stack. -/
theorem suspended_chain_dropped :
    suspendedChain.conts 0 = some 4096 ∧
      ParentChain suspendedChain.records (some 4096) [(4096, innerRecord), (8192, outerRecord)] ∧
      (camlDropContinuation suspendedChain 0 0).2 = .ok () ∧
      Freed { suspendedChain with conts := Function.update suspendedChain.conts 0 none }
        (camlDropContinuation suspendedChain 0 0).1 0 4096 innerRecord :=
  have dropped := drop_continuation_frees_first.2 4096 innerRecord _ (by decide) suspendedChain_linked
  ⟨by decide, suspendedChain_linked, dropped.1, dropped.2.1⟩

/-- Dropping the suspended fiber releases the stack at `4096` alone: the stack at `8192`, which only
the chain held, stays allocated and live with its record, though no continuation and no live
stack refers to it any more. -/
theorem dropped_chain_keeps_outer_stack :
    Reachable (samplePlatform .plain true 64) suspendedChain ∧ suspendedChain.conts 0 = some 4096 ∧
      ParentChain suspendedChain.records (some 4096) [(4096, innerRecord), (8192, outerRecord)] ∧
      (camlDropContinuation suspendedChain 0 0).2 = .ok () ∧
      (camlDropContinuation suspendedChain 0 0).1.live 8192 = true ∧
      (camlDropContinuation suspendedChain 0 0).1.records 8192 = some outerRecord ∧
      (∀ cont, (camlDropContinuation suspendedChain 0 0).1.conts cont ≠ some 8192) ∧
      ∀ stack info, (camlDropContinuation suspendedChain 0 0).1.live stack = true →
        (camlDropContinuation suspendedChain 0 0).1.records stack = some info →
        info.parent ≠ some 8192 := by
  have freed := @camlFreeStack_freed
    { suspendedChain with conts := Function.update suspendedChain.conts 0 none } 0 4096 innerRecord
    (by decide)
  have dropped : camlDropContinuation suspendedChain 0 0 =
      (camlFreeStack { suspendedChain with conts := Function.update suspendedChain.conts 0 none } 0
        4096, .ok ()) := rfl
  rw [dropped]
  refine ⟨suspendedChain_reachable, by decide, suspendedChain_linked, rfl, by decide, by decide,
    fun cont => ?_, fun stack info live found => ?_⟩
  · rw [freed.conts]
    show Function.update (Function.update (fun _ => none) 0 (some 4096)) 0 none cont ≠ some 8192
    by_cases zero : cont = 0 <;> simp [zero]
  · have only : stack = 8192 := by
      rw [freed.live] at live
      revert live
      show Function.update (Function.update (Function.update (fun _ => false) 4096 true) 8192 true)
        4096 false stack = true → stack = 8192
      by_cases outer : stack = 8192
      · simp [outer]
      · by_cases inner : stack = 4096
        · subst inner
          simp
        · simp [outer, inner]
    subst only
    rw [show (camlFreeStack _ 0 4096).records 8192 = some outerRecord by decide] at found
    cases found
    decide

end FiberRuntime
