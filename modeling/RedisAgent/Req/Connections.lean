/-
  RedisAgent.Req.Connections — what a request was handed, it gives back.

  Main result: `proxy_no_leak_iff`.  A request that is done has released each of
  its connections, exactly once, if and only if none of its `backend_call`s has
  returned non-zero: `req_on_acquired` then sets the state and forgets the handle.
-/
import RedisAgent.Req.Standing

namespace RedisAgent

open Links

variable {ν : Type*}

/-! ## §1. A history without a leak. -/

/-- Every connection handed to request `r` has been given back exactly once, and
none is given back more often than it was handed out. -/
structure NoLeak (hist : List Event) (r : Nat) : Prop where
  returned : ∀ x c, .issued r x ∈ hist → .acquired x (some c) ∈ hist →
    hist.count (.released x c) = 1
  handedOut : ∀ x c, hist.count (.released x c) ≤ hist.count (.acquired x (some c))

/-! ## §2. What a fate says about connections. -/

/-- A connection is released only after it was handed out, and once. -/
theorem released_le_acquired {hist : List Event} (h : subLife.Lawful hist) (x : Nat)
    (c : ConnRef) : hist.count (.released x c) ≤ hist.count (.acquired x (some c)) := by
  rw [count_released h, count_acquired h]
  cases subLife.life hist x with
  | none => exact Nat.le_refl _
  | some p =>
      obtain ⟨r, f⟩ := p
      cases f with
      | finished c' =>
          show (if c' = c then 1 else 0) ≤ if some c' = some c then 1 else 0
          by_cases hc : c' = c
          · rw [if_pos hc, if_pos (congrArg some hc)]
          · rw [if_neg hc]
            exact Nat.zero_le _
      | _ => exact Nat.zero_le _

/-- A settled sub-request that was handed `c` has released it, or was refused with
it. -/
theorem settled_acquired {hist : List Event} (h : subLife.Lawful hist) {r x : Nat} {f : Fate}
    {c : ConnRef} (hf : subLife.life hist x = some (r, f)) (hset : f.Settled)
    (hacq : .acquired x (some c) ∈ hist) : f = .finished c ∨ f = .refused (some c) := by
  have hpos : 0 < hist.count (.acquired x (some c)) := List.count_pos_iff.2 hacq
  rw [count_acquired h, hf] at hpos
  cases f with
  | waiting => exact absurd hpos (Nat.lt_irrefl 0)
  | failed => exact absurd hpos (Nat.lt_irrefl 0)
  | removed => exact absurd hpos (Nat.lt_irrefl 0)
  | held hd => exact hset.elim
  | answered hd => exact hset.elim
  | refused hd =>
      have hpos' : 0 < if hd = some c then 1 else 0 := hpos
      by_cases hc : hd = some c
      · exact Or.inr (congrArg Fate.refused hc)
      · rw [if_neg hc] at hpos'
        omega
  | finished c' =>
      have hpos' : 0 < if some c' = some c then 1 else 0 := hpos
      by_cases hc : some c' = some c
      · exact Or.inl (congrArg Fate.finished (Option.some.inj hc))
      · rw [if_neg hc] at hpos'
        omega

/-! ## §3. Every run. -/

/-- **No connection is leaked by a request.**  In any state a proxy can reach, for
any request for which `req_done` has run: each connection it was handed has been
released exactly once, if and only if no `backend_call` made for it has returned
non-zero. -/
theorem proxy_no_leak_iff {sizes : Nat → Proxy.PoolSize} {s : Proxy ν}
    (h : (proxyLts ν sizes).Reachable s) {r : Nat} {err : Int}
    (hdone : .done r err ∈ s.table.hist) :
    NoLeak s.table.hist r ↔ ∀ x, .issued r x ∈ s.table.hist → .callFailed x ∉ s.table.hist := by
  obtain ⟨L, hinv⟩ := Proxy.reachable_inv h
  have hlawful := hinv.table.lawful
  obtain ⟨late, -, -, -, hset⟩ := hinv.table.answered hdone
  constructor
  · intro hleak x hissued hfailed
    obtain ⟨f, hf⟩ := (hinv.table.issued_iff r x).1 hissued
    obtain ⟨hsettled, -⟩ := hset x f hf
    -- it was refused, so with a connection, which it kept
    have hpos := List.count_pos_iff.2 hfailed
    rw [count_callFailed hlawful] at hpos
    have hf' : subLife.life s.table.hist x = some (r, f) := hf
    rw [hf'] at hpos
    cases f with
    | refused hd =>
        cases hd with
        | none => exact hsettled
        | some c =>
            have hacq : .acquired x (some c) ∈ s.table.hist := by
              rw [← List.count_pos_iff, count_acquired hlawful, hf']
              show 0 < if some c = some c then 1 else 0
              rw [if_pos rfl]
              exact Nat.one_pos
            have hone := hleak.returned x c hissued hacq
            rw [count_released hlawful, hf'] at hone
            cases hone
    | _ => exact absurd hpos (Nat.lt_irrefl 0)
  · intro hcalls
    refine ⟨?_, released_le_acquired hlawful⟩
    intro x c hissued hacq
    obtain ⟨f, hf⟩ := (hinv.table.issued_iff r x).1 hissued
    obtain ⟨hsettled, -⟩ := hset x f hf
    rcases settled_acquired hlawful hf hsettled hacq with rfl | rfl
    · have hf' : subLife.life s.table.hist x = some (r, .finished c) := hf
      rw [count_released hlawful, hf']
      show (if c = c then 1 else 0) = 1
      rw [if_pos rfl]
    · have hf' : subLife.life s.table.hist x = some (r, .refused (some c)) := hf
      have hfailed : .callFailed x ∈ s.table.hist := by
        rw [← List.count_pos_iff, count_callFailed hlawful, hf']
        exact Nat.one_pos
      exact absurd hfailed (hcalls x hissued)

/-- The sub-request waits, the connection is made, and `backend_call` returns `ret`. -/
def calledSteps (ret : Int) : List (ProxyStep Unit) :=
  [.acquire (firstServer 0), .acquire (firstServer 0), .pool 1 0 (.created ⟨0, 0⟩ 0 {}),
    .callReturn ret]

/-- It completes, and so does the request. -/
def completedSteps : List (ProxyStep Unit) :=
  calledSteps 0 ++ [.shardDone 0 0 {}, .releaseReturn]

/-- It is refused, and the time of the request is over. -/
def refusedSteps : List (ProxyStep Unit) :=
  calledSteps (-1) ++ [.timeout 0, .cleanup, .cleanup]

theorem completedSteps_enabled : oneKeyProxy.AllEnabled completedSteps := by
  refine ⟨⟨nofun, rfl, 0, _, rfl, ?_⟩, ⟨nofun, rfl, 0, _, rfl, nofun⟩,
    ⟨nofun, trivial, ⟨by decide, rfl⟩, rfl⟩, ⟨nofun, 0, [], rfl, fun h => absurd rfl h⟩,
    ⟨nofun, _, rfl, rfl⟩, ⟨nofun, 0, 0, [], rfl⟩, trivial⟩
  intro c i hc hi
  cases hc
  have hi0 : some 0 = some i := hi
  cases hi0
  exact ⟨⟨by decide, rfl⟩, rfl⟩

theorem proxy_no_leak_iff_witness : NoLeak (oneKeyProxy.execAll completedSteps).table.hist 0 := by
  have hhist : (oneKeyProxy.execAll completedSteps).table.hist = [.ready 0, .issued 0 0,
      .acquired 0 (some ⟨1, 0, ⟨0, 0⟩⟩), .shardDone 0, .released 0 ⟨1, 0, ⟨0, 0⟩⟩, .done 0 0] := rfl
  have hdone : .done 0 0 ∈ (oneKeyProxy.execAll completedSteps).table.hist := by
    rw [hhist]
    simp
  refine (proxy_no_leak_iff (Proxy.reachable_execAll oneKeyProxy_reachable
    completedSteps_enabled) hdone).2 ?_
  intro x _ hx
  rw [hhist] at hx
  simp at hx

theorem refusedSteps_enabled : oneKeyProxy.AllEnabled refusedSteps := by
  refine ⟨⟨nofun, rfl, 0, _, rfl, ?_⟩, ⟨nofun, rfl, 0, _, rfl, nofun⟩,
    ⟨nofun, trivial, ⟨by decide, rfl⟩, rfl⟩, ⟨nofun, 0, [], rfl, fun _ => ⟨_, rfl, rfl⟩⟩,
    ⟨nofun, ⟨rfl, rfl⟩, _, rfl, rfl⟩, ⟨nofun, rfl, 0, rfl⟩, ⟨nofun, rfl, 0, rfl⟩, trivial⟩
  intro c i hc hi
  cases hc
  have hi0 : some 0 = some i := hi
  cases hi0
  exact ⟨⟨by decide, rfl⟩, rfl⟩

/-- The connection was handed out and is never released. -/
theorem proxy_leaks :
    ¬ ∀ (s : Proxy Unit) (r : Nat) (err : Int), (proxyLts Unit smallPools).Reachable s →
      .done r err ∈ s.table.hist → NoLeak s.table.hist r := by
  intro hall
  have hleak := hall _ 0 504 (Proxy.reachable_execAll oneKeyProxy_reachable refusedSteps_enabled)
  have hhist : (oneKeyProxy.execAll refusedSteps).table.hist = [.ready 0, .issued 0 0,
      .acquired 0 (some ⟨1, 0, ⟨0, 0⟩⟩), .callFailed 0, .timeout 0, .popped 0 0, .done 0 504] := rfl
  rw [hhist] at hleak
  have hone := (hleak (by simp)).returned 0 ⟨1, 0, ⟨0, 0⟩⟩ (by simp) (by simp)
  have hzero : List.count (Event.released 0 ⟨1, 0, ⟨0, 0⟩⟩) [.ready 0, .issued 0 0,
      .acquired 0 (some ⟨1, 0, ⟨0, 0⟩⟩), .callFailed 0, .timeout 0, .popped 0 0, .done 0 504]
      = 0 := by decide
  omega

end RedisAgent
