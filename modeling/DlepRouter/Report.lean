import DlepRouter.Iana
import DlepRouter.Tlv.Scan

/-!
# What the router prints and scans

The values a parser prints for each data item, without the labels around them, and the outputs of
a scan over a message: the visit of an item, a report, and a message handed to `send`.
-/

namespace DlepRouter

open Tlv

/-- The address families of the socket interface. -/
inductive Family where
  | inet
  | inet6
  deriving DecidableEq

/-- The octets of an address. -/
def Family.addressSize : Family → ℕ
  | inet => 4
  | inet6 => 16

/-- Whether an update adds an address or drops it. -/
inductive Action where
  | add
  | drop
  deriving DecidableEq

/-- A line printed by a parser. -/
inductive Report where
  | received : MessageType → Report
  | number : DataItemType → ℕ → Report
  | peerType : (text : List UInt8) → (secured : Bool) → Report
  | status : UInt8 → Report
  | extension : UInt16 → Report
  | macAddress : List UInt8 → Report
  | address : Option Action → Family → (octets : List UInt8) → Report
  | attachedSubnet : Option Action → Family → (octets : List UInt8) → (length : UInt8) → Report
  | connectionPoint : Family → (secured : Bool) → (octets : List UInt8) → Report
  deriving DecidableEq

/-- What a scan over a message emits. -/
inductive Output where
  | visit : Visit UInt16 → Output
  | report : Report → Output
  | respond : List UInt8 → Output
  deriving DecidableEq

/-- Scans over the octets of a message buffer. -/
abbrev Reader (α : Type) := Scan UInt8 Output α

/-- The items visited, in order. -/
def visits (os : List Output) : List (Visit UInt16) :=
  os.filterMap fun | .visit v => some v | _ => none

/-- The lines printed, in order. -/
def reports (os : List Output) : List Report :=
  os.filterMap fun | .report r => some r | _ => none

/-- The messages handed to `send`, in order. -/
def responses (os : List Output) : List (List UInt8) :=
  os.filterMap fun | .respond msg => some msg | _ => none

@[simp] lemma visits_nil : visits [] = [] := rfl

@[simp] lemma visits_cons_visit (v : Visit UInt16) (os : List Output) :
    visits (.visit v :: os) = v :: visits os := rfl

@[simp] lemma visits_cons_report (r : Report) (os : List Output) :
    visits (.report r :: os) = visits os := rfl

@[simp] lemma visits_cons_respond (msg : List UInt8) (os : List Output) :
    visits (.respond msg :: os) = visits os := rfl

@[simp] lemma visits_append (os os' : List Output) :
    visits (os ++ os') = visits os ++ visits os' := by
  simp [visits]

@[simp] lemma reports_nil : reports [] = [] := rfl

@[simp] lemma reports_cons_visit (v : Visit UInt16) (os : List Output) :
    reports (.visit v :: os) = reports os := rfl

@[simp] lemma reports_cons_report (r : Report) (os : List Output) :
    reports (.report r :: os) = r :: reports os := rfl

@[simp] lemma reports_cons_respond (msg : List UInt8) (os : List Output) :
    reports (.respond msg :: os) = reports os := rfl

@[simp] lemma reports_append (os os' : List Output) :
    reports (os ++ os') = reports os ++ reports os' := by
  simp [reports]

@[simp] lemma responses_nil : responses [] = [] := rfl

@[simp] lemma responses_cons_visit (v : Visit UInt16) (os : List Output) :
    responses (.visit v :: os) = responses os := rfl

@[simp] lemma responses_cons_report (r : Report) (os : List Output) :
    responses (.report r :: os) = responses os := rfl

@[simp] lemma responses_cons_respond (msg : List UInt8) (os : List Output) :
    responses (.respond msg :: os) = msg :: responses os := rfl

@[simp] lemma responses_append (os os' : List Output) :
    responses (os ++ os') = responses os ++ responses os' := by
  simp [responses]

end DlepRouter
