import Schemata.Store.Basic

/-! A store that answers from a given list of outcomes and keeps the writes it was asked for. -/

namespace Schemata

/-- A write as the store was asked for it. -/
inductive StoreCall
  | statement (sql : Text)
  | script (sql : Text)
  deriving DecidableEq, Repr

/-- The outcomes still to give, and the calls so far, in order. -/
structure Playbook where
  outcomes : List (Except StoreError Unit)
  calls : List StoreCall

namespace Playbook

/-- Notes a call and gives the next outcome; behind the last one every write succeeds. -/
def answer (p : Playbook) (call : StoreCall) : Except StoreError Unit × Playbook :=
  (p.outcomes.headD (.ok ()), ⟨p.outcomes.tail, p.calls ++ [call]⟩)

def store : Store Playbook where
  backend := "Fake"
  executeStatement p sql := p.answer (.statement sql)
  executeScript p sql := p.answer (.script sql)

end Playbook
end Schemata
