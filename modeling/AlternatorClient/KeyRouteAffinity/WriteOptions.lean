import AlternatorClient.KeyRouteAffinity

/-! Which writes are routed by their partition key: all of them, or those that
the server has to read before it writes. -/
namespace AlternatorClient

inductive KeyRouteAffinityMode where
  | none
  | readBeforeWrite
  | anyWrite
  deriving DecidableEq, Repr

inductive WriteOperationKind where
  | putItem
  | updateItem
  | deleteItem
  deriving DecidableEq, Repr

inductive ReturnValues where
  | notSet
  | none
  | allOld
  | updatedOld
  | allNew
  | updatedNew
  deriving DecidableEq, Repr

inductive AttributeAction where
  | put
  | add
  | delete
  deriving DecidableEq, Repr

structure AttributeUpdate where
  action : AttributeAction := .put
  hasValue : Bool := false
  deriving DecidableEq, Repr

structure WriteOperationOptions where
  hasUpdateExpression : Bool := false
  hasConditionExpression : Bool := false
  hasExpected : Bool := false
  returnValues : ReturnValues := .notSet
  attributeUpdates : List AttributeUpdate := []
  deriving DecidableEq, Repr

/-- What a put and a delete have to read first. -/
def readsOldItem (options : WriteOperationOptions) : Bool :=
  options.hasExpected || options.hasConditionExpression || options.returnValues == .allOld

def doesWriteNeedReadBeforeWrite (kind : WriteOperationKind) (options : WriteOperationOptions) :
    Bool :=
  match kind with
  | .putItem => readsOldItem options
  | .deleteItem => readsOldItem options
  | .updateItem =>
    if options.hasUpdateExpression || options.hasConditionExpression || options.hasExpected then true
    else
      match options.returnValues with
      | .allOld | .updatedOld | .allNew => true
      | .notSet | .none | .updatedNew =>
        options.attributeUpdates.any fun update =>
          update.action == .add || update.action == .delete && update.hasValue

def shouldUseKeyRouteAffinity (mode : KeyRouteAffinityMode) (kind : WriteOperationKind)
    (options : WriteOperationOptions) : Bool :=
  match mode with
  | .none => false
  | .readBeforeWrite => doesWriteNeedReadBeforeWrite kind options
  | .anyWrite => true

end AlternatorClient
