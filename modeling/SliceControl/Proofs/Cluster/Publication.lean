import SliceControl.Proofs.Cluster.Channel
import SliceControl.Proofs.Store.Reachable

/-!
# Who is woken

A change from outside publishes the key of every workload for which a pass would now come to another
outcome, and the cluster puts on the channel what is published. Outcomes can be compared as they
are: they carry no identifiers of their own, and their times are those of the pass.
-/

namespace SliceControl

/-- Where a pass in the same context would come to another outcome, the key is published. -/
theorem Store.mem_published_of_reconcile_ne {store : Store} (hreachable : store.Reachable)
    (mutation : Mutation) (now : Instant) {key : String} {context : PassContext}
    (hchanged : reconcile ((mutation.effect store now).1.reading key) context ≠
      reconcile (store.reading key) context) : key ∈ (mutation.effect store now).2 := by
  by_contra hsilent
  exact hchanged
    (reconcile_of_not_published hreachable.consistent mutation now hsilent context)

namespace Cluster

variable {cluster : Cluster} {key : String} {context : PassContext}

/-- Keys that are published reach the channel, unless it drops some key. -/
theorem mem_waiting_of_publish {store : Store} {keys : List String} (hkey : key ∈ keys)
    {channel : EventChannel} (hchannel : (cluster.publish store keys).channel = some channel)
    (hnone : channel.missed = 0) : key ∈ channel.waiting := by
  obtain ⟨before, -, rfl⟩ := Option.map_eq_some_iff.mp hchannel
  exact EventChannel.mem_foldl_send hnone hkey

/-- Whatever a client of the server asks for, every workload that it concerns is published. -/
theorem mem_published_answer (hreachable : cluster.store.Reachable) (timeout : Duration)
    (drawn : Uid) (request : Api.Request)
    (hchanged : reconcile ((cluster.respond timeout drawn request).2.store.reading key) context ≠
      reconcile (cluster.store.reading key) context) :
    key ∈ (Api.answer ⟨cluster.now, timeout, drawn⟩ cluster.store request).published := by
  rcases Api.isMutation_answer ⟨cluster.now, timeout, drawn⟩ cluster.store request with
    hidle | ⟨mutation, hmutation⟩
  · have hstore : (cluster.respond timeout drawn request).2.store = cluster.store :=
      congrArg Prod.fst hidle
    rw [hstore] at hchanged
    exact absurd rfl hchanged
  · have hstore : (mutation.effect cluster.store cluster.now).1 =
        (cluster.respond timeout drawn request).2.store := congrArg Prod.fst hmutation
    have hkeys : (mutation.effect cluster.store cluster.now).2 =
        (Api.answer ⟨cluster.now, timeout, drawn⟩ cluster.store request).published :=
      congrArg Prod.snd hmutation
    rw [← hstore] at hchanged
    rw [← hkeys]
    exact Store.mem_published_of_reconcile_ne hreachable mutation cluster.now hchanged

/-- A change from outside wakes every workload that it concerns: where a pass in the same context
would come to another outcome than before, the key of the workload is published, and it is on the
channel afterwards unless the channel has dropped some key. -/
theorem wakes_affected (hreachable : cluster.store.Reachable) (mutation : Mutation)
    (hchanged : reconcile ((mutation.effect cluster.store cluster.now).1.reading key) context ≠
      reconcile (cluster.store.reading key) context) :
    let effect := mutation.effect cluster.store cluster.now
    key ∈ effect.2 ∧ ∀ channel, (cluster.publish effect.1 effect.2).channel = some channel →
      channel.missed = 0 → key ∈ channel.waiting := by
  intro effect
  have hpublished : key ∈ effect.2 :=
    Store.mem_published_of_reconcile_ne hreachable mutation cluster.now hchanged
  exact ⟨hpublished, fun channel ↦ mem_waiting_of_publish hpublished⟩

end Cluster

/-- The sample workload is admitted onto a node that is not registered yet. -/
def Sample.waiting : Cluster :=
  { Cluster.start (.ofNanos 0) with
    store := Store.empty.mutateAll [(.upsertWorkload workload, .ofNanos 0)]
    channel := some .empty }

/-- Once its node is registered, the workload can be given its slice, and it is woken. -/
theorem Cluster.wakes_affected_sample :
    let effect := (Mutation.upsertNode Sample.node).effect Sample.waiting.store (.ofNanos 0)
    reconcile (effect.1.reading "team/job") Sample.context ≠
        reconcile (Sample.waiting.store.reading "team/job") Sample.context ∧
      ∃ channel, (Sample.waiting.publish effect.1 effect.2).channel = some channel ∧
        "team/job" ∈ channel.waiting := by
  intro effect
  have hchanged : reconcile (effect.1.reading "team/job") Sample.context ≠
      reconcile (Sample.waiting.store.reading "team/job") Sample.context := by
    decide +kernel
  have hreachable : Sample.waiting.store.Reachable := Store.Reachable.empty.mutateAll _
  obtain ⟨-, hwoken⟩ :=
    Cluster.wakes_affected hreachable (.upsertNode Sample.node) hchanged
  exact ⟨hchanged, _, rfl, hwoken _ rfl (by decide +kernel)⟩

end SliceControl
