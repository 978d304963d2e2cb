import Mathlib
import Kllm.Lib.Ledger

set_option autoImplicit false

namespace Kllm.Reactor

open Ledger

-- What the reactor process gets and gives back; a create call and the destroy
-- call for it are one resource.
inductive ReactorResource where
  | descriptor (fd : Int)
  | tokenRing
  | arena
  | cacheIdx
  | dispatch
  | poller
deriving DecidableEq, Repr

-- The owning fields of the context: the descriptor, and which pointers are set.
structure ReactorHandles where
  chardevFd : Int
  ring : Bool
  poller : Bool
  arena : Bool
  cacheIdx : Bool
  dispatch : Bool
deriving DecidableEq, Repr

-- Static storage: the descriptor starts as 0, which is one of the process.
def gCtx : ReactorHandles := ⟨0, false, false, false, false, false⟩

def kllmTokenRingMagic : UInt32 := 0x4B4C4C4D

structure StartEnv where
  openRet : Int
  mapped : Bool
  magic : UInt32
  arenaCreated : Bool
  indexCreated : Bool
  dispatchCreated : Bool
  pollerRegistered : Bool

structure LifetimeCall where
  ctx : ReactorHandles
  ret : Int
  events : List (Event ReactorResource)

def kllmMapTokenRing (env : StartEnv) (ctx : ReactorHandles) : LifetimeCall :=
  let fd := ReactorResource.descriptor env.openRet
  if env.openRet < 0 then ⟨ctx, -1, []⟩
  else if env.mapped = false then ⟨ctx, -1, [.acquire fd, .release fd]⟩
  else if env.magic ≠ kllmTokenRingMagic then
    ⟨ctx, -1, [.acquire fd, .acquire .tokenRing, .release .tokenRing, .release fd]⟩
  else ⟨{ ctx with chardevFd := env.openRet, ring := true }, 0, [.acquire fd, .acquire .tokenRing]⟩

-- A failed create sets its pointer to null; the pointers set before it keep
-- their values after they are destroyed.
def kllmInitKvcacheHandles (env : StartEnv) (ctx : ReactorHandles) : LifetimeCall :=
  if env.arenaCreated = false then ⟨{ ctx with arena := false }, -1, []⟩
  else if env.indexCreated = false then
    ⟨{ ctx with arena := true, cacheIdx := false }, -1, [.acquire .arena, .release .arena]⟩
  else if env.dispatchCreated = false then
    ⟨{ ctx with arena := true, cacheIdx := true, dispatch := false }, -1,
      [.acquire .arena, .acquire .cacheIdx, .release .cacheIdx, .release .arena]⟩
  else
    ⟨{ ctx with arena := true, cacheIdx := true, dispatch := true }, 0,
      [.acquire .arena, .acquire .cacheIdx, .acquire .dispatch]⟩

def registerPoller (env : StartEnv) (ctx : ReactorHandles) : LifetimeCall :=
  if env.pollerRegistered = false then ⟨{ ctx with poller := false }, -1, []⟩
  else ⟨{ ctx with poller := true }, 0, [.acquire .poller]⟩

def LifetimeCall.next (call : LifetimeCall) (after : ReactorHandles → LifetimeCall) : LifetimeCall :=
  if call.ret ≠ 0 then call
  else ⟨(after call.ctx).ctx, (after call.ctx).ret, call.events ++ (after call.ctx).events⟩

def kllmReactorStart (env : StartEnv) (ctx : ReactorHandles) : LifetimeCall :=
  ((kllmMapTokenRing env ctx).next (kllmInitKvcacheHandles env)).next (registerPoller env)

def releaseIf (owned : Bool) (resource : ReactorResource) : List (Event ReactorResource) :=
  if owned then [.release resource] else []

-- The unregistered poller, the ring and the descriptor are reset; the dispatch,
-- index and arena pointers are not.
def kllmReactorShutdown (ctx : ReactorHandles) : ReactorHandles × List (Event ReactorResource) :=
  ({ ctx with poller := false, ring := false, chardevFd := if 0 ≤ ctx.chardevFd then -1 else ctx.chardevFd },
    releaseIf ctx.poller .poller ++ releaseIf ctx.dispatch .dispatch ++ releaseIf ctx.cacheIdx .cacheIdx ++
      releaseIf ctx.arena .arena ++ releaseIf ctx.ring .tokenRing ++
      releaseIf (0 ≤ ctx.chardevFd) (.descriptor ctx.chardevFd))

def shutdownEvents (ctx : ReactorHandles) : Nat → List (Event ReactorResource)
  | 0 => []
  | count + 1 => (kllmReactorShutdown ctx).2 ++ shutdownEvents (kllmReactorShutdown ctx).1 count

def RingMapped (env : StartEnv) : Prop := 0 ≤ env.openRet ∧ env.mapped = true ∧ env.magic = kllmTokenRingMagic

instance (env : StartEnv) : Decidable (RingMapped env) := inferInstanceAs (Decidable (_ ∧ _ ∧ _))

theorem map_token_ring_mapped {env : StartEnv} (mapped : RingMapped env) (ctx : ReactorHandles) :
    kllmMapTokenRing env ctx = ⟨{ ctx with chardevFd := env.openRet, ring := true }, 0,
      [ReactorResource.descriptor env.openRet, ReactorResource.tokenRing].map .acquire⟩ := by
  obtain ⟨opened, found, magic⟩ := mapped
  simp [kllmMapTokenRing, not_lt.mpr opened, found, magic]

theorem map_token_ring_unmapped {env : StartEnv} (unmapped : ¬ RingMapped env) (ctx : ReactorHandles) :
    (kllmMapTokenRing env ctx).ctx = ctx ∧ (kllmMapTokenRing env ctx).ret = -1 ∧
      Cleared (kllmMapTokenRing env ctx).events := by
  rw [kllmMapTokenRing]
  split
  · exact ⟨rfl, rfl, rfl⟩
  · rename_i opened
    split
    · exact ⟨rfl, rfl, cleared_reverse [ReactorResource.descriptor env.openRet] (by simp)⟩
    · rename_i found
      split
      · exact ⟨rfl, rfl, cleared_reverse [ReactorResource.descriptor env.openRet, .tokenRing] (by simp)⟩
      · rename_i magic
        exact absurd ⟨not_lt.mp opened, by simpa using found, not_not.mp magic⟩ unmapped

def startedResources (env : StartEnv) : List ReactorResource :=
  [.descriptor env.openRet, .tokenRing] ++
    (if env.arenaCreated then [.arena, .cacheIdx, .dispatch] ++ (if env.pollerRegistered then [.poller] else []) else [])

theorem started_nodup (env : StartEnv) : (startedResources env).Nodup := by
  rw [startedResources]
  cases env.arenaCreated <;> cases env.pollerRegistered <;> simp

theorem shutdown_idle (count : Nat) : shutdownEvents ⟨-1, false, false, false, false, false⟩ count = [] := by
  induction count with
  | zero => rfl
  | succ count ih => exact ih

section
variable {env : StartEnv}

theorem start_unmapped (unmapped : ¬ RingMapped env) :
    (kllmReactorStart env gCtx).ctx = gCtx ∧ Cleared (kllmReactorStart env gCtx).events := by
  obtain ⟨ctx, ret, cleared⟩ := map_token_ring_unmapped unmapped gCtx
  have stopped : kllmReactorStart env gCtx = kllmMapTokenRing env gCtx := by
    simp [kllmReactorStart, LifetimeCall.next, ret]
  rw [stopped]
  exact ⟨ctx, cleared⟩

-- The static descriptor is closed though the process never opened it here.
theorem unmapped_not_cleared (unmapped : ¬ RingMapped env) (count : Nat) :
    ¬ Cleared ((kllmReactorStart env gCtx).events ++ shutdownEvents (kllmReactorStart env gCtx).ctx (count + 1)) := by
  obtain ⟨ctx, cleared⟩ := start_unmapped unmapped
  rw [cleared_append_iff cleared, ctx, Cleared]
  have refused : settle ∅ (shutdownEvents gCtx (count + 1)) = none :=
    settle_gone (r := ReactorResource.descriptor 0) [] _ (Finset.notMem_empty _) List.not_mem_nil
  rw [refused]
  exact Option.some_ne_none ∅ ∘ Eq.symm

def CacheWhole (env : StartEnv) : Prop := env.arenaCreated = true → env.indexCreated = true ∧ env.dispatchCreated = true

instance (env : StartEnv) : Decidable (CacheWhole env) := inferInstanceAs (Decidable (_ → _))

theorem start_whole (mapped : RingMapped env) (whole : CacheWhole env) :
    (kllmReactorStart env gCtx).events = (startedResources env).map .acquire ∧
      (kllmReactorStart env gCtx).ctx = ⟨env.openRet, true, env.arenaCreated && env.pollerRegistered,
        env.arenaCreated, env.arenaCreated, env.arenaCreated⟩ := by
  rw [kllmReactorStart, map_token_ring_mapped mapped, startedResources]
  cases arena : env.arenaCreated with
  | false => simp [LifetimeCall.next, kllmInitKvcacheHandles, arena, gCtx]
  | true =>
      obtain ⟨index, dispatch⟩ := whole arena
      cases poller : env.pollerRegistered with
      | false => simp [LifetimeCall.next, kllmInitKvcacheHandles, registerPoller, arena, index, dispatch, poller, gCtx]
      | true => simp [LifetimeCall.next, kllmInitKvcacheHandles, registerPoller, arena, index, dispatch, poller]

theorem shutdown_started (opened : 0 ≤ env.openRet) :
    kllmReactorShutdown ⟨env.openRet, true, env.arenaCreated && env.pollerRegistered, env.arenaCreated, env.arenaCreated,
        env.arenaCreated⟩ =
      (⟨-1, false, false, env.arenaCreated, env.arenaCreated, env.arenaCreated⟩,
        (startedResources env).reverse.map .release) := by
  cases arena : env.arenaCreated with
  | false => simp [kllmReactorShutdown, releaseIf, startedResources, arena, opened]
  | true =>
      cases poller : env.pollerRegistered with
      | false => simp [kllmReactorShutdown, releaseIf, startedResources, arena, poller, opened]
      | true => simp [kllmReactorShutdown, releaseIf, startedResources, arena, poller, opened]

-- The pointers to the cache are still set: another shutdown frees it again.
theorem shutdown_again (cached : Bool) (count : Nat) :
    Cleared (shutdownEvents ⟨-1, false, false, cached, cached, cached⟩ count) ↔ (cached = true → count = 0) := by
  cases cached with
  | false =>
      rw [shutdown_idle]
      exact ⟨fun _ => Bool.noConfusion, fun _ => rfl⟩
  | true =>
      cases count with
      | zero => exact ⟨fun _ _ => rfl, fun _ => rfl⟩
      | succ count =>
          have refused : settle ∅ (shutdownEvents ⟨-1, false, false, true, true, true⟩ (count + 1)) = none :=
            settle_gone (r := ReactorResource.dispatch) [] _ (Finset.notMem_empty _) List.not_mem_nil
          rw [Cleared, refused]
          exact ⟨fun settled => absurd settled.symm (Option.some_ne_none ∅), fun never => absurd (never rfl) (Nat.succ_ne_zero count)⟩

theorem start_without_index (mapped : RingMapped env) (arena : env.arenaCreated = true) (index : env.indexCreated = false) :
    kllmReactorStart env gCtx = ⟨⟨env.openRet, true, false, true, false, false⟩, -1,
      [.acquire (.descriptor env.openRet), .acquire .tokenRing, .acquire .arena, .release .arena]⟩ := by
  rw [kllmReactorStart, map_token_ring_mapped mapped]
  simp [LifetimeCall.next, kllmInitKvcacheHandles, gCtx, arena, index]

theorem start_without_dispatch (mapped : RingMapped env) (arena : env.arenaCreated = true) (index : env.indexCreated = true)
    (dispatch : env.dispatchCreated = false) :
    kllmReactorStart env gCtx = ⟨⟨env.openRet, true, false, true, true, false⟩, -1,
      [.acquire (.descriptor env.openRet), .acquire .tokenRing, .acquire .arena, .acquire .cacheIdx, .release .cacheIdx,
        .release .arena]⟩ := by
  rw [kllmReactorStart, map_token_ring_mapped mapped]
  simp [LifetimeCall.next, kllmInitKvcacheHandles, gCtx, arena, index, dispatch]

theorem part_not_cleared (mapped : RingMapped env) (part : ¬ CacheWhole env) (count : Nat) :
    ¬ Cleared ((kllmReactorStart env gCtx).events ++ shutdownEvents (kllmReactorStart env gCtx).ctx (count + 1)) := by
  obtain ⟨arena, missing⟩ := Classical.not_imp.mp part
  have refused : settle ∅ ((kllmReactorStart env gCtx).events ++
      shutdownEvents (kllmReactorStart env gCtx).ctx (count + 1)) = none := by
    cases index : env.indexCreated with
    | false =>
        rw [start_without_index mapped arena index]
        exact settle_twice (r := ReactorResource.arena) ∅
          [.acquire (.descriptor env.openRet), .acquire .tokenRing, .acquire .arena] [] _ List.not_mem_nil
    | true =>
        have dispatch : env.dispatchCreated = false := by simpa [index] using missing
        rw [start_without_dispatch mapped arena index dispatch]
        exact settle_twice (r := ReactorResource.cacheIdx) ∅
          [.acquire (.descriptor env.openRet), .acquire .tokenRing, .acquire .arena, .acquire .cacheIdx] [.release .arena] _
          (by simp)
  rw [Cleared, refused]
  exact fun settled => Option.some_ne_none ∅ settled.symm

end

theorem reactor_lifetime_cleared_iff (env : StartEnv) (count : Nat) :
    Cleared ((kllmReactorStart env gCtx).events ++ shutdownEvents (kllmReactorStart env gCtx).ctx (count + 1)) ↔
      RingMapped env ∧
        (env.arenaCreated = true → env.indexCreated = true ∧ env.dispatchCreated = true ∧ count = 0) := by
  by_cases mapped : RingMapped env
  · by_cases whole : CacheWhole env
    · obtain ⟨events, ctx⟩ := start_whole mapped whole
      rw [events, ctx, shutdownEvents, shutdown_started mapped.1, ← List.append_assoc,
        cleared_append_iff (cleared_reverse _ (started_nodup env)), shutdown_again]
      constructor
      · exact fun once => ⟨mapped, fun arena => ⟨(whole arena).1, (whole arena).2, once arena⟩⟩
      · exact fun clean arena => (clean.2 arena).2.2
    · refine iff_of_false (part_not_cleared mapped whole count) ?_
      exact fun clean => whole (fun arena => ⟨(clean.2 arena).1, (clean.2 arena).2.1⟩)
  · exact iff_of_false (unmapped_not_cleared mapped count) (fun clean => mapped clean.1)

end Kllm.Reactor
