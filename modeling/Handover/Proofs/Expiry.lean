import Handover.Proofs.Inspection

/-!
Contract: which timeout a check of the heartbeats goes by.

A setting that is too large for the clock's arithmetic is replaced by ten seconds. So up to the
longest timeout a check goes by the timeout that was set, and a larger setting expires no more
nodes. Beyond it a check is as strict as with ten seconds, whatever was set.

Owns: when a check turns the record of an alive node dead, in terms of the setting; for which
settings and ages that is when the heartbeat is older than was set; and in which range a larger
setting never turns more records dead.
-/

set_option autoImplicit false

namespace Handover.Coordinator.State

open Time (Instant)
open Detection (Stale)

variable {state : State} {timeoutMillis : Nat} {now : Instant} {node : Address} {record : Liveness}

/-- What a check reports and leaves is settled by the state, but for the log. -/
theorem Checks.unique {reports others : List Address} {after other : State}
    (first : state.Checks timeoutMillis now reports after)
    (second : state.Checks timeoutMillis now others other) :
    reports = others ∧ after.unlogged = other.unlogged := by
  have heeded : Heeded .calm := ⟨fun _ => rfl, fun _ _ => rfl⟩
  obtain ⟨last, played, left⟩ := first 0 .calm heeded (.opening state) rfl
  obtain ⟨again, playedAgain, leftAgain⟩ := second 0 .calm heeded (.opening state) rfl
  obtain ⟨same, rfl⟩ := Prod.mk.inj (Option.some.inj (played.symm.trans playedAgain))
  cases same
  exact ⟨rfl, left.symm.trans leftAgain⟩

/-- Undisturbed, a check with the timeout turns the record of the node dead. -/
def Expires (state : State) (timeoutMillis : Nat) (now : Instant) (node : Address) (record : Liveness) :
    Prop :=
  ∃ reports after, state.Checks timeoutMillis now reports after ∧
    after.world.members.record? node = some record.markedDead

/-- Undisturbed, a check with the timeout leaves the record of the node as it is. -/
def Spares (state : State) (timeoutMillis : Nat) (now : Instant) (node : Address) (record : Liveness) :
    Prop :=
  ∃ reports after, state.Checks timeoutMillis now reports after ∧
    after.world.members.record? node = some record

section Verdict

variable (there : state.world.members.record? node = some record)

include there

theorem record?_of_checks {reports : List Address} {after : State}
    (checks : state.Checks timeoutMillis now reports after) : after.world.members.record? node =
      some (if Detection.isDue timeoutMillis now record then record.markedDead else record) := by
  obtain ⟨-, same⟩ := checks.unique (state.checks timeoutMillis now)
  have sameWorld : after.unlogged.world = _ := congrArg State.world same
  rw [show after.world = _ from sameWorld]
  exact (Membership.record?_flipped_dueAmong timeoutMillis now state.world.members node).trans
    (by rw [there, Option.map_some])

theorem expires_iff_isDue :
    state.Expires timeoutMillis now node record ↔ Detection.isDue timeoutMillis now record = true := by
  constructor
  · rintro ⟨reports, after, checks, dead⟩
    rw [record?_of_checks there checks] at dead
    by_contra undue
    rw [if_neg undue] at dead
    have versions := congrArg Liveness.version (Option.some.inj dead)
    exact Nat.succ_ne_self _ versions.symm
  · intro due
    have checks := state.checks timeoutMillis now
    refine ⟨_, _, checks, ?_⟩
    rw [record?_of_checks there checks, if_pos due]

theorem spares_iff_not_expires :
    state.Spares timeoutMillis now node record ↔ ¬ state.Expires timeoutMillis now node record := by
  rw [expires_iff_isDue there]
  constructor
  · rintro ⟨reports, after, checks, unmoved⟩ due
    rw [record?_of_checks there checks, if_pos due] at unmoved
    have versions := congrArg Liveness.version (Option.some.inj unmoved)
    exact Nat.succ_ne_self _ versions
  · intro undue
    have checks := state.checks timeoutMillis now
    refine ⟨_, _, checks, ?_⟩
    rw [record?_of_checks there checks, if_neg undue]

end Verdict

/-! ## The law -/

/-- For which settings of the timeout a check as of `now` expires a node that is alive and was last
heard at `heard`. -/
structure TimeoutKept (state : State) (now : Instant) (node : Address) (record : Liveness)
    (heard : Instant) : Prop where
  /-- A check either turns the record dead or leaves it as it is. -/
  decides : ∀ timeoutMillis, state.Spares timeoutMillis now node record ↔
    ¬ state.Expires timeoutMillis now node record
  /-- Up to the longest timeout that is when the heartbeat is older than was set, … -/
  within : ∀ timeoutMillis ≤ MonitorSettings.longestTimeout,
    (state.Expires timeoutMillis now node record ↔
      timeoutMillis * Instant.nanosPerMilli < heard.age now)
  /-- … and beyond it when the heartbeat is older than ten seconds. -/
  beyond : ∀ timeoutMillis, MonitorSettings.longestTimeout < timeoutMillis →
    (state.Expires timeoutMillis now node record ↔ 10000 * Instant.nanosPerMilli < heard.age now)
  /-- So a setting is kept unless it is beyond the longest timeout and the heartbeat is older than
  ten seconds, but not as old as was set. -/
  kept : ∀ timeoutMillis, (state.Expires timeoutMillis now node record ↔
      timeoutMillis * Instant.nanosPerMilli < heard.age now) ↔
    ¬ (MonitorSettings.longestTimeout < timeoutMillis ∧ 10000 * Instant.nanosPerMilli < heard.age now ∧
      heard.age now ≤ timeoutMillis * Instant.nanosPerMilli)
  /-- A larger setting expires no node that a smaller one spares, unless it is beyond the longest
  timeout and the smaller one is more than ten seconds. -/
  raising : ∀ smaller larger, smaller ≤ larger →
    larger ≤ MonitorSettings.longestTimeout ∨ smaller ≤ 10000 →
      state.Expires larger now node record → state.Expires smaller now node record

theorem timeout_kept {heard : Instant} (there : state.world.members.record? node = some record)
    (alive : record.alive = true) (lastHeard : record.lastHeartbeat = some heard) :
    TimeoutKept state now node record heard := by
  have verdict : ∀ timeoutMillis, state.Expires timeoutMillis now node record ↔
      MonitorSettings.effectiveTimeout timeoutMillis * Instant.nanosPerMilli < heard.age now := by
    intro timeoutMillis
    have apart : record ≠ .neverAlive := by
      rintro rfl
      cases alive
    rw [expires_iff_isDue there, Detection.isDue_iff, or_iff_left apart, Stale, lastHeard]
    simp [alive]
  have within : ∀ timeoutMillis ≤ MonitorSettings.longestTimeout,
      MonitorSettings.effectiveTimeout timeoutMillis = timeoutMillis := fun _ bounded => if_pos bounded
  have beyond : ∀ timeoutMillis, MonitorSettings.longestTimeout < timeoutMillis →
      MonitorSettings.effectiveTimeout timeoutMillis = 10000 := fun _ exceeds => if_neg (Nat.not_le.2 exceeds)
  refine ⟨fun _ => spares_iff_not_expires there, ?within, ?beyond, ?kept, ?raising⟩
  case within =>
    intro timeoutMillis bounded
    rw [verdict, within _ bounded]
  case beyond =>
    intro timeoutMillis exceeds
    rw [verdict, beyond _ exceeds]
    rfl
  case kept =>
    intro timeoutMillis
    rw [verdict]
    simp only [Instant.nanosPerMilli]
    rcases Nat.lt_or_ge MonitorSettings.longestTimeout timeoutMillis with exceeds | bounded
    · have more : 10000 < timeoutMillis := Nat.lt_of_le_of_lt (by decide) exceeds
      rw [beyond _ exceeds]
      omega
    · rw [within _ bounded]
      omega
  case raising =>
    intro smaller larger le ranges expires
    have less : MonitorSettings.effectiveTimeout smaller ≤ MonitorSettings.effectiveTimeout larger := by
      rcases Nat.lt_or_ge MonitorSettings.longestTimeout larger with exceeds | bounded
      · have few : smaller ≤ 10000 := ranges.resolve_left (Nat.not_le.2 exceeds)
        rwa [beyond _ exceeds, within _ (Nat.le_trans few (by decide))]
      · rwa [within _ bounded, within _ (Nat.le_trans le bounded)]
    rw [verdict] at expires ⊢
    simp only [Instant.nanosPerMilli] at expires ⊢
    omega

/-- A node that was heard last at the beginning, and nobody else. -/
private def unheard : State :=
  .initial default
    { World.initial with members := .ofList [(⟨"a:1"⟩, .heardAt ⟨0, 0⟩ 1)] }

/-- After twenty seconds the node is expired with a timeout of ten, and spared with the longest. -/
theorem timeout_kept_of_unheard :
    unheard.world.members.record? ⟨"a:1"⟩ = some (.heardAt ⟨0, 0⟩ 1) ∧
    TimeoutKept unheard ⟨20, 0⟩ ⟨"a:1"⟩ (.heardAt ⟨0, 0⟩ 1) ⟨0, 0⟩ ∧
    unheard.Expires 10000 ⟨20, 0⟩ ⟨"a:1"⟩ (.heardAt ⟨0, 0⟩ 1) ∧
    unheard.Spares MonitorSettings.longestTimeout ⟨20, 0⟩ ⟨"a:1"⟩ (.heardAt ⟨0, 0⟩ 1) := by
  have there : unheard.world.members.record? ⟨"a:1"⟩ = some (.heardAt ⟨0, 0⟩ 1) := by decide
  have kept : TimeoutKept unheard ⟨20, 0⟩ ⟨"a:1"⟩ (.heardAt ⟨0, 0⟩ 1) ⟨0, 0⟩ := timeout_kept there rfl rfl
  refine ⟨there, kept, (kept.within 10000 (by decide)).2 (by decide), (kept.decides _).2 ?_⟩
  rw [kept.within _ (Nat.le_refl _)]
  decide

/-- A setting of 2^63 milliseconds expires the node after twenty seconds, and one of thirty seconds
does not. -/
theorem unheard_expires_too_early :
    ((2 ^ 63 : Nat) : Int) * Instant.nanosPerMilli ≥ Instant.age ⟨0, 0⟩ ⟨20, 0⟩ ∧
    unheard.Expires (2 ^ 63) ⟨20, 0⟩ ⟨"a:1"⟩ (.heardAt ⟨0, 0⟩ 1) ∧
    ¬ unheard.Expires 30000 ⟨20, 0⟩ ⟨"a:1"⟩ (.heardAt ⟨0, 0⟩ 1) := by
  have there : unheard.world.members.record? ⟨"a:1"⟩ = some (.heardAt ⟨0, 0⟩ 1) := by decide
  refine ⟨by decide, (expires_iff_isDue there).2 (by decide), fun expires => ?_⟩
  exact absurd ((expires_iff_isDue there).1 expires) (by decide)

end Handover.Coordinator.State
