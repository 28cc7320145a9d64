import BareMetal.Cluster.Node
import BareMetal.Time.Stamp

/-!
# Health of members

Whether a machine that has joined the cluster is still a healthy member, and if not, how long it
may stay that way.
-/

namespace BareMetal

/-- The time left until something unhealthy since `since` has been so for `wait`. -/
def remainingWait (since : Stamp) (wait : Span) (now : Stamp) : Span :=
  wait.remaining (since.elapsed now)

/-- A judgement of the Node of a machine. -/
inductive MemberVerdict
  /-- Ready, or allowed to be unhealthy without limit. -/
  | healthy
  /-- Not ready; to be looked at again after the time given. -/
  | recheck (after : Span)
  /-- Gone or going. -/
  | lost
  /-- Not ready for too long. -/
  | unhealthy
deriving DecidableEq

/-- Judges a Node. Where its condition gives no time, the first sighting counts, and where there
was none, the Node has just become unhealthy. -/
def assessMember (node : Option Cluster.Node) (wait : Option Span) (firstSeen : Option Stamp)
    (now : Stamp) : MemberVerdict :=
  match node.filter fun n => n.metadata.deletionTimestamp.isNone with
  | none => .lost
  | some node =>
    match node.health, wait with
    | .ready, _ | .notReady _, none => .healthy
    | .notReady since, some wait =>
      let left := remainingWait ((since <|> firstSeen).getD now) wait now
      if left.isZero then .unhealthy else .recheck left

end BareMetal
