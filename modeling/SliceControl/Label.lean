/-!
# Label and annotation names

The names by which jobs, workloads, slices and nodes refer to queues, shapes and places.
-/

namespace SliceControl.Label

/-- On a job that was submitted to a queue. -/
def queueName : String := "kueue.x-k8s.io/queue-name"

/-- On a pod template: the requested shape, such as `4x4x4`. -/
def topology : String := "cloud.google.com/gke-tpu-topology"

/-- In a node selector: the accelerator type. -/
def accelerator : String := "cloud.google.com/gke-tpu-accelerator"

/-- On a node: the block it stands in. -/
def block : String := "cloud.google.com/gce-topology-block"

/-- On a node: the sub-block it stands in. -/
def subBlock : String := "cloud.google.com/gce-topology-subblock"

/-- The placement level that names a single node. -/
def hostname : String := "kubernetes.io/hostname"

/-- On a node: whether it may host new slices. -/
def health : String := "cloud.google.com/gke-tpu-slice-health"

/-- The value of `health` on a node that may host new slices. -/
def healthy : String := "healthy"

/-- On a pod template: the coarse level that all pods share. -/
def requiredTopology : String := "kueue.x-k8s.io/podset-required-topology"

/-- On a pod template: the fine level that the pods of one unit share. -/
def sliceRequiredTopology : String := "kueue.x-k8s.io/podset-slice-required-topology"

/-- On a pod template: the number of pods in one unit. -/
def sliceSize : String := "kueue.x-k8s.io/podset-slice-size"

/-- On a slice: the workload that owns it. -/
def ownerWorkloadNamespace : String := "slice.tpu.dev/owner-workload-namespace"

def ownerWorkloadName : String := "slice.tpu.dev/owner-workload-name"

/-- On a slice: the job that it was made for. -/
def ownerJobNamespace : String := "slice.tpu.dev/owner-job-namespace"

def ownerJobName : String := "slice.tpu.dev/owner-job-name"

/-- On a slice: the replica that it backs. -/
def replicatedJob : String := "slice.tpu.dev/replicated-job"

def replicaIndex : String := "slice.tpu.dev/replica-index"

/-- The resource name of accelerator chips. -/
def chipResource : String := "google.com/tpu"

/-- On a node: its partition of the given shape. -/
def partition (shape : String) : String := "cloud.google.com/gke-tpu-partition-" ++ shape ++ "-id"

end SliceControl.Label
