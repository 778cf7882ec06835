import BoundaryProxy.Diagnostic
import BoundaryProxy.TypeExpr.Printer

/-!
# `BoundaryProxy.Synthesis.Notice` — what synthesis reports

Whatever a proxy cannot offer the way the wrapped interface does is reported: a method or a setter that is
left out, an argument that is thrown away, objects that leave through a sequence, events that are not
forwarded. A member is never dropped without a notice.
-/

namespace BoundaryProxy.Synthesis

/-- Something a proxy does not offer the way the wrapped interface does. -/
inductive Notice where
  | methodRejected (owner : TypeExpr) (method : String) (outParams : List String)
  | argumentDiscarded (owner : TypeExpr) (method : String) (param : String)
  | sequenceLeak (owner : TypeExpr) (member : String) (type : TypeExpr)
  | setterWithoutValue (owner : TypeExpr) (setter : String)
  | eventsNotForwarded (owner : TypeExpr) (count : Nat)
deriving Repr, DecidableEq

/-- The notice as a diagnostic. -/
def Notice.diagnostic : Notice → Diagnostic
  | methodRejected owner method outParams =>
    let names := String.intercalate ", " outParams
    ⟨.warning, some .outParamRejected,
      s!"{owner}.{method} skipped: output-only parameter(s) {names} cannot cross the boundary"⟩
  | argumentDiscarded owner method param =>
    ⟨.note, some .outParamDiscarded, s!"{owner}.{method}: output parameter '{param}' is discarded"⟩
  | sequenceLeak owner member type =>
    ⟨.warning, some .sequenceLeak,
      s!"{owner}.{member} returns {type}; elements are passed through without id substitution"⟩
  | setterWithoutValue owner setter =>
    ⟨.warning, none, s!"{owner}.{setter} has no value parameter; setter skipped"⟩
  | eventsNotForwarded owner count =>
    ⟨.warning, some .eventsUnsupported,
      s!"{owner}: {count} event(s) not forwarded; registry-member proxies do not support events"⟩

end BoundaryProxy.Synthesis
