import Mathlib.Data.List.Nodup
import SliceControl.Cluster
import SliceControl.Proofs.Procedure

/-!
# Keys on the channel

Whatever goes on in the cluster, a key on the channel stays there until it is received, unless the
channel drops it, which it counts.
-/

namespace SliceControl

namespace EventChannel

/-- A later state of a channel from which nothing has been received: unless some key has been
dropped, all keys that have been waiting still are. -/
structure Extends (later channel : EventChannel) : Prop where
  missed_le : channel.missed ≤ later.missed
  waiting : later.missed = 0 → ∀ key ∈ channel.waiting, key ∈ later.waiting

theorem Extends.refl (channel : EventChannel) : channel.Extends channel :=
  ⟨Nat.le_refl _, fun _ _ hkey ↦ hkey⟩

theorem Extends.trans {last later channel : EventChannel} (hlast : last.Extends later)
    (hlater : later.Extends channel) : last.Extends channel where
  missed_le := Nat.le_trans hlater.missed_le hlast.missed_le
  waiting := by
    intro hnone key hkey
    have hlaterNone : later.missed = 0 := by
      have hle := hlast.missed_le
      omega
    exact hlast.waiting hnone key (hlater.waiting hlaterNone key hkey)

theorem extends_send (channel : EventChannel) (key : String) :
    (channel.send key).Extends channel := by
  unfold send
  split_ifs with hroom
  · exact ⟨Nat.le_refl _, fun _ other hother ↦ List.mem_append_left _ hother⟩
  · exact ⟨Nat.le_succ _, fun hnone ↦ absurd hnone (Nat.succ_ne_zero _)⟩

theorem mem_send (channel : EventChannel) (key : String) : key ∈ (channel.send key).waiting := by
  unfold send
  split_ifs <;> simp

theorem extends_foldl_send (keys : List String) (channel : EventChannel) :
    (keys.foldl send channel).Extends channel := by
  induction keys generalizing channel with
  | nil => exact .refl channel
  | cons key rest ih => exact (ih _).trans (extends_send channel key)

/-- Published keys are on the channel, unless some key has been dropped. -/
theorem mem_foldl_send {keys : List String} {channel : EventChannel}
    (hnone : (keys.foldl send channel).missed = 0) {key : String} (hkey : key ∈ keys) :
    key ∈ (keys.foldl send channel).waiting := by
  induction keys generalizing channel with
  | nil => exact absurd hkey List.not_mem_nil
  | cons first rest ih =>
    rcases List.mem_cons.mp hkey with rfl | hrest
    · exact (extends_foldl_send rest _).waiting hnone key (mem_send channel key)
    · exact ih hnone hrest

/-- A key is received from the front of the channel, which has dropped none. -/
theorem receive?_eq_key_iff {channel rest : EventChannel} {key : String} :
    channel.receive? = some (.key key, rest) ↔
      channel.missed = 0 ∧ rest.missed = 0 ∧ channel.waiting = key :: rest.waiting := by
  obtain ⟨waiting, missed⟩ := channel
  obtain ⟨left, dropped⟩ := rest
  unfold receive?
  cases waiting with
  | nil => split_ifs with hmissed <;> simp_all
  | cons first others =>
    split_ifs with hmissed
    · simp_all
    · simp only [Option.some.injEq, Prod.mk.injEq, Received.key.injEq, mk.injEq, List.cons.injEq]
      simp only [ne_eq, not_not] at hmissed
      constructor
      · rintro ⟨rfl, rfl, rfl⟩
        exact ⟨hmissed, hmissed, rfl, rfl⟩
      · rintro ⟨-, hdropped, rfl, rfl⟩
        exact ⟨rfl, rfl, hmissed.trans hdropped.symm⟩

end EventChannel

namespace Cluster

/-- Somebody listens, and nothing has been received from `channel` meanwhile. -/
def Hears (cluster : Cluster) (channel : EventChannel) : Prop :=
  ∃ later, cluster.channel = some later ∧ later.Extends channel

variable {cluster : Cluster} {channel : EventChannel}

theorem Hears.publish (h : cluster.Hears channel) (store : Store) (keys : List String) :
    (cluster.publish store keys).Hears channel := by
  obtain ⟨later, hlater, hextends⟩ := h
  refine ⟨keys.foldl EventChannel.send later, ?_, ?_⟩
  · simp [Cluster.publish, hlater]
  · exact (EventChannel.extends_foldl_send keys later).trans hextends

theorem Hears.perform {α : Type} (h : cluster.Hears channel)
    (operation : Store → Instant → Change α) : (cluster.perform operation).2.Hears channel :=
  h.publish _ _

theorem Hears.serve (h : cluster.Hears channel) (request : StoreRequest) :
    (Cluster.serve request cluster).2.Hears channel := by
  unfold Cluster.serve
  cases hnext : (cluster.outages.take request.method).1 with
  | none =>
    simp only [hnext]
    refine Hears.perform ?_ _
    exact h
  | some outage =>
    simp only [hnext]
    split_ifs
    · refine Hears.perform ?_ _
      exact h
    · exact h

/-- Whatever a procedure does, it receives nothing from the channel. -/
theorem Hears.run {α : Type} (h : cluster.Hears channel)
    (procedure : Procedure StoreRequest StoreRequest.Reply α) :
    (procedure.run world cluster).2.Hears channel :=
  Procedure.run_preserves (Hears · channel) (fun request _ hstate ↦ hstate.serve request)
    (fun _ _ hstate ↦ hstate) procedure h

end Cluster

end SliceControl
