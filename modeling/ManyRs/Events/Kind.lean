import ManyRs.Cbor.Basic

/-! The `define_event!` table of `_4_events.rs` as data: the kinds, the attribute index of
each (`define_event_kind!`), its method argument and its fields, in the order the macros
expand them. -/
namespace ManyRs.Events

/-- `EventKind`, one constructor per row of `define_event!`. -/
inductive EventKind
  | send
  | accountCreate
  | accountSetDescription
  | accountAddRoles
  | accountRemoveRoles
  | accountDisable
  | accountAddFeatures
  | accountMultisigSubmit
  | accountMultisigApprove
  | accountMultisigRevoke
  | accountMultisigExecute
  | accountMultisigWithdraw
  | accountMultisigSetDefaults
  | accountMultisigExpired
  deriving DecidableEq, Repr

/-- Modelled from the spec: `AttributeRelatedIndex` (not in src), an attribute and its nested
sub-indices, known through `flattened()`. -/
structure AttributeRelatedIndex where
  flattened : List Nat
  deriving DecidableEq, Repr

/-- What a row gives as `$method_arg`: nothing (the kind is no transaction), the argument of
a plain transaction, or `SubmitTransactionArgs`, which holds a nested transaction. -/
inductive MethodArg
  | none
  | plain
  | submit
  deriving DecidableEq, Repr

/-- The field types of the table. `Symbol` is an alias of `Address`. -/
inductive FieldType
  | address
  | tokenAmount
  | optString
  | roles
  | featureSet
  | string
  | optMemo
  | transaction
  | optByteVec
  | u64
  | timestamp
  | bool
  | optData
  | byteVec
  | optAddress
  | responseMessage
  | optU64
  | optBool
  deriving DecidableEq, Repr

/-- The tags a field may carry, `[ $($tag)* ]`, which the views `symbol()` and
`addresses()` read. -/
inductive FieldTag
  | id
  | idNonNull
  | symbol
  | inner
  deriving DecidableEq, Repr

/-- A field of a row, `$idx | $fname: $type [ $($tag)* ]`. -/
structure Field where
  index : Nat
  type : FieldType
  tags : List FieldTag
  deriving DecidableEq, Repr

namespace EventKind

/-- `From<EventKind> for AttributeRelatedIndex`: `new($index).with_index($sub)..`. -/
def attributeIndex : EventKind → AttributeRelatedIndex
  | send => ⟨[6, 0]⟩
  | accountCreate => ⟨[9, 0]⟩
  | accountSetDescription => ⟨[9, 1]⟩
  | accountAddRoles => ⟨[9, 2]⟩
  | accountRemoveRoles => ⟨[9, 3]⟩
  | accountDisable => ⟨[9, 4]⟩
  | accountAddFeatures => ⟨[9, 5]⟩
  | accountMultisigSubmit => ⟨[9, 1, 0]⟩
  | accountMultisigApprove => ⟨[9, 1, 1]⟩
  | accountMultisigRevoke => ⟨[9, 1, 2]⟩
  | accountMultisigExecute => ⟨[9, 1, 3]⟩
  | accountMultisigWithdraw => ⟨[9, 1, 4]⟩
  | accountMultisigSetDefaults => ⟨[9, 1, 5]⟩
  | accountMultisigExpired => ⟨[9, 1, 6]⟩

/-- `TryFrom<AttributeRelatedIndex>`: the kind whose row has index `flattened()`. -/
def ofAttributeIndex (x : AttributeRelatedIndex) : Option EventKind :=
  match x.flattened with
  | [6, 0] => some send
  | [9, 0] => some accountCreate
  | [9, 1] => some accountSetDescription
  | [9, 2] => some accountAddRoles
  | [9, 3] => some accountRemoveRoles
  | [9, 4] => some accountDisable
  | [9, 5] => some accountAddFeatures
  | [9, 1, 0] => some accountMultisigSubmit
  | [9, 1, 1] => some accountMultisigApprove
  | [9, 1, 2] => some accountMultisigRevoke
  | [9, 1, 3] => some accountMultisigExecute
  | [9, 1, 4] => some accountMultisigWithdraw
  | [9, 1, 5] => some accountMultisigSetDefaults
  | [9, 1, 6] => some accountMultisigExpired
  | _ => none

@[simp] theorem ofAttributeIndex_attributeIndex (k : EventKind) :
    ofAttributeIndex k.attributeIndex = some k := by
  cases k <;> rfl

/-- The `$method_arg` of each row: `AccountMultisigExpired` has none. -/
def methodArg : EventKind → MethodArg
  | accountMultisigSubmit => .submit
  | accountMultisigExpired => .none
  | _ => .plain

/-- The fields of each row, in the order the macro writes them. -/
def fields : EventKind → List Field
  -- from, to, symbol, amount
  | send => [⟨1, .address, [.id]⟩, ⟨2, .address, [.id]⟩, ⟨3, .address, [.symbol]⟩,
      ⟨4, .tokenAmount, []⟩]
  -- account, description, roles, features
  | accountCreate => [⟨1, .address, [.id]⟩, ⟨2, .optString, []⟩, ⟨3, .roles, []⟩,
      ⟨4, .featureSet, []⟩]
  -- account, description
  | accountSetDescription => [⟨1, .address, [.id]⟩, ⟨2, .string, []⟩]
  -- account, roles
  | accountAddRoles => [⟨1, .address, [.id]⟩, ⟨2, .roles, []⟩]
  | accountRemoveRoles => [⟨1, .address, [.id]⟩, ⟨2, .roles, []⟩]
  -- account
  | accountDisable => [⟨1, .address, [.id]⟩]
  -- account, roles, features
  | accountAddFeatures => [⟨1, .address, [.id]⟩, ⟨2, .roles, []⟩, ⟨3, .featureSet, []⟩]
  -- submitter, account, memo, transaction, token, threshold, timeout,
  -- execute_automatically, data
  | accountMultisigSubmit =>
    [⟨1, .address, [.id]⟩, ⟨2, .address, [.id]⟩, ⟨3, .optMemo, []⟩, ⟨4, .transaction, [.inner]⟩,
      ⟨5, .optByteVec, []⟩, ⟨6, .u64, []⟩, ⟨7, .timestamp, []⟩, ⟨8, .bool, []⟩, ⟨9, .optData, []⟩]
  -- account, token, approver (revoker, withdrawer)
  | accountMultisigApprove => [⟨1, .address, [.id]⟩, ⟨2, .byteVec, []⟩, ⟨3, .address, [.id]⟩]
  | accountMultisigRevoke => [⟨1, .address, [.id]⟩, ⟨2, .byteVec, []⟩, ⟨3, .address, [.id]⟩]
  -- account, token, executer, response
  | accountMultisigExecute =>
    [⟨1, .address, [.id]⟩, ⟨2, .byteVec, []⟩, ⟨3, .optAddress, [.idNonNull]⟩,
      ⟨4, .responseMessage, []⟩]
  | accountMultisigWithdraw => [⟨1, .address, [.id]⟩, ⟨2, .byteVec, []⟩, ⟨3, .address, [.id]⟩]
  -- submitter, account, threshold, timeout_in_secs, execute_automatically
  | accountMultisigSetDefaults =>
    [⟨1, .address, [.id]⟩, ⟨2, .address, [.id]⟩, ⟨3, .optU64, []⟩, ⟨4, .optU64, []⟩,
      ⟨5, .optBool, []⟩]
  -- account, token, time
  | accountMultisigExpired => [⟨1, .address, [.id]⟩, ⟨2, .byteVec, []⟩, ⟨3, .timestamp, []⟩]

/-- Every row's field indices are distinct and fit the decoder's `u32`. -/
theorem fields_nodup (k : EventKind) : (k.fields.map Field.index).Nodup := by
  cases k <;> decide

theorem index_lt_of_mem_fields (k : EventKind) : ∀ f ∈ k.fields, f.index < 2 ^ 32 := by
  cases k <;> decide

theorem fields_length_lt (k : EventKind) : 1 + k.fields.length < 2 ^ 64 := by
  cases k <;> decide

end EventKind

end ManyRs.Events
