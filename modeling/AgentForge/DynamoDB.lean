import Mathlib.Data.List.AList

/-! A document database in the manner of DynamoDB. An item maps attribute names
to values and is stored under its table and the values of two of its attributes.
A write names one item, what is to become of it, and a condition on what is
stored there now; it happens as a whole or not at all, and so does a transaction
of several writes. Expressions are syntax trees over placeholders. The service is
a structure of operations with the laws a client may rely on, and a `Database` of
plain tables is one that keeps them. The values are of any type with decidable
equality. -/
namespace DynamoDB

/-- The attributes of an item. -/
abbrev Item (V : Type) := AList (fun _ : String => V)

/-- The two attributes an item is stored under. -/
structure Schema where
  partition : String
  sort : String
  distinct : partition ≠ sort

/-- Where an item is stored. -/
structure Key (V : Type) where
  table : String
  partition : V
  sort : V
  deriving DecidableEq

variable {V : Type}

/-- Attributes written one after the other, as into a map: a later value replaces
an earlier one. -/
def assign (attributes : List (String × V)) (item : Item V) : Item V :=
  attributes.foldl (fun item pair => item.insert pair.1 pair.2) item

/-- The value that lasts. -/
def latest : List (String × V) → String → Option V
  | [], _ => none
  | (name', value) :: rest, name => (latest rest name).or (if name' = name then some value else none)

theorem latest_append (first second : List (String × V)) (name : String) :
    latest (first ++ second) name = (latest second name).or (latest first name) := by
  induction first with
  | nil => simp [latest]
  | cons pair rest ih => simp [latest, ih, Option.or_assoc]

private theorem latest_eq_none (absent : name ∉ attributes.map Prod.fst) :
    latest attributes name = none := by
  induction attributes with
  | nil => rfl
  | cons pair rest ih =>
    simp only [List.map_cons, List.mem_cons, not_or] at absent
    simp [latest, ih absent.2, Ne.symm absent.1]

theorem lookup_assign (attributes : List (String × V)) (item : Item V) (name : String) :
    (assign attributes item).lookup name = (latest attributes name).or (item.lookup name) := by
  induction attributes generalizing item with
  | nil => rfl
  | cons pair rest ih =>
    rw [assign, List.foldl_cons, ← assign, ih, latest, Option.or_assoc]
    congr 1
    by_cases same : pair.1 = name
    · simp [same]
    · simp [same, AList.lookup_insert_ne (Ne.symm same)]

/-! ## Expressions -/

/-- `ExpressionAttributeNames` and `ExpressionAttributeValues`. -/
structure Placeholders (V : Type) where
  names : List (String × String) := []
  values : List (String × V) := []

/-- The attribute a path stands for: one that starts with `#` is a placeholder. -/
def Placeholders.attribute (p : Placeholders V) (path : String) : Option String :=
  if path.toList.head? = some '#' then p.names.lookup path else some path

/-- A placeholder that an expression does not use is an error of the request. -/
def Placeholders.allUsed (p : Placeholders V) (uses : List String) : Bool :=
  p.names.all (fun entry => uses.contains entry.1) &&
    p.values.all (fun entry => uses.contains entry.1)

/-- A `ConditionExpression`. -/
inductive Condition where
  | empty
  | attributeExists (path : String)
  | attributeNotExists (path : String)
  | equal (path value : String)
  | and (left right : Condition)
  | or (left right : Condition)

namespace Condition

/-- The conditions joined by `OR`. -/
def anyOf : List Condition → Condition
  | [] => .empty
  | [part] => part
  | part :: parts => .or part (anyOf parts)

/-- The paths and placeholders an expression is written with. -/
def uses : Condition → List String
  | .empty => []
  | .attributeExists path | .attributeNotExists path => [path]
  | .equal path value => [path, value]
  | .and left right | .or left right => left.uses ++ right.uses

/-- What a condition says of an item, unless the expression is no valid one. -/
def resolve [DecidableEq V] (p : Placeholders V) : Condition → Option (Item V → Bool)
  | .empty => none
  | .attributeExists path => do
    let name ← p.attribute path
    return fun item => (item.lookup name).isSome
  | .attributeNotExists path => do
    let name ← p.attribute path
    return fun item => (item.lookup name).isNone
  | .equal path value => do
    let name ← p.attribute path
    let expected ← p.values.lookup value
    return fun item => item.lookup name = some expected
  | .and left right => do
    let leftHolds ← left.resolve p
    let rightHolds ← right.resolve p
    return fun item => leftHolds item && rightHolds item
  | .or left right => do
    let leftHolds ← left.resolve p
    let rightHolds ← right.resolve p
    return fun item => leftHolds item || rightHolds item

theorem uses_anyOf (parts : List Condition) : (anyOf parts).uses = parts.flatMap uses := by
  fun_induction anyOf parts with
  | case1 => rfl
  | case2 part => simp
  | case3 part parts _ ih => simp [uses, ih]

/-- One of several conditions holds. -/
theorem resolve_anyOf [DecidableEq V] {holds : List (Item V → Bool)} (some_part : parts ≠ [])
    (resolved : List.Forall₂ (fun part meets => part.resolve p = some meets) parts holds) :
    (anyOf parts).resolve p = some fun item => holds.any fun meets => meets item := by
  induction resolved with
  | nil => exact absurd rfl some_part
  | @cons part meets rest others first tail ih =>
    cases tail with
    | nil => simp [anyOf, first]
    | cons second tail' =>
      have remaining := ih (List.cons_ne_nil _ _)
      simp [anyOf, resolve, first, remaining]

end Condition

/-- An `UpdateExpression`: `SET path = :value, … REMOVE path, …`. -/
structure Update where
  set : List (String × String) := []
  remove : List String := []

/-- An update with its placeholders filled in. -/
structure Changes (V : Type) where
  set : List (String × V)
  remove : List String

def Update.uses (update : Update) : List String :=
  update.set.flatMap (fun assignment => [assignment.1, assignment.2]) ++ update.remove

def Update.resolve (p : Placeholders V) (update : Update) : Option (Changes V) := do
  let set ← update.set.mapM fun assignment => do
    let name ← p.attribute assignment.1
    let value ← p.values.lookup assignment.2
    return (name, value)
  let remove ← update.remove.mapM p.attribute
  return ⟨set, remove⟩

private theorem mapM_of_forall₂
    (each : List.Forall₂ (fun source result => f source = some result) sources results) :
    sources.mapM f = some results := by
  induction each with
  | nil => rfl
  | cons first _ ih => simp [List.mapM_cons, first, ih]

/-- An update is filled in path by path. -/
theorem Update.resolve_eq {p : Placeholders V} {update : Update}
    (set : List.Forall₂ (fun assignment change => p.attribute assignment.1 = some change.1 ∧
      p.values.lookup assignment.2 = some change.2) update.set changes.set)
    (remove : List.Forall₂ (fun path name => p.attribute path = some name)
      update.remove changes.remove) : update.resolve p = some changes := by
  have filled := mapM_of_forall₂ (set.imp fun assignment change both =>
    show (do
      let name ← p.attribute assignment.1
      let value ← p.values.lookup assignment.2
      return (name, value)) = some change by simp [both.1, both.2])
  rw [Update.resolve, filled, mapM_of_forall₂ remove]
  rfl

namespace Changes

variable {changes : Changes V} {item : Item V} {name : String}

/-- The attributes an update writes or removes. -/
def touched (changes : Changes V) : List String := changes.set.map Prod.fst ++ changes.remove

/-- An update may name an attribute once, and none of the key. -/
def Allowed (schema : Schema) (changes : Changes V) : Prop :=
  changes.touched.Nodup ∧ schema.partition ∉ changes.touched ∧ schema.sort ∉ changes.touched

instance (schema : Schema) (changes : Changes V) : Decidable (changes.Allowed schema) :=
  inferInstanceAs (Decidable (_ ∧ _ ∧ _))

def apply (changes : Changes V) (item : Item V) : Item V :=
  changes.remove.foldl (fun item name => item.erase name) (assign changes.set item)

private theorem lookup_remove (names : List String) (item : Item V) (untouched : name ∉ names) :
    (names.foldl (fun item name => item.erase name) item).lookup name = item.lookup name := by
  induction names generalizing item with
  | nil => rfl
  | cons removed rest ih =>
    simp only [List.mem_cons, not_or] at untouched
    rw [List.foldl_cons, ih _ untouched.2, AList.lookup_erase_ne untouched.1]

/-- An update leaves the attributes it does not name. -/
theorem lookup_apply (untouched : name ∉ changes.touched) :
    (changes.apply item).lookup name = item.lookup name := by
  simp only [touched, List.mem_append, not_or] at untouched
  rw [apply, lookup_remove _ _ untouched.2, lookup_assign, latest_eq_none untouched.1,
    Option.none_or]

end Changes

/-- A `ProjectionExpression`: the attributes asked for that the item has. -/
def Item.project (attributes : List String) (item : Item V) : Item V :=
  attributes.foldl (fun kept name => match item.lookup name with
    | none => kept
    | some value => kept.insert name value) ∅

/-! ## The service -/

/-- An item that belongs under a key: its two key attributes are the key's. -/
def Keyed (schema : Schema) (key : Key V) (item : Item V) : Prop :=
  item.lookup schema.partition = some key.partition ∧ item.lookup schema.sort = some key.sort

variable {schema : Schema}

private theorem Changes.Allowed.keyed {changes : Changes V} (allowed : changes.Allowed schema)
    {key : Key V} (keyed : Keyed schema key item) :
    Keyed schema key (changes.apply item) :=
  ⟨(lookup_apply allowed.2.1).trans keyed.1, (lookup_apply allowed.2.2).trans keyed.2⟩

/-- The item with no attribute but its key's. -/
def Key.item (schema : Schema) (key : Key V) : Item V :=
  AList.insert schema.sort key.sort (AList.insert schema.partition key.partition ∅)

private theorem Key.keyed_item (key : Key V) : Keyed schema key (key.item schema) := by
  constructor
  · rw [Key.item, AList.lookup_insert_ne schema.distinct, AList.lookup_insert]
  · rw [Key.item, AList.lookup_insert]

/-- The key an item has in a table, if it has both key attributes. -/
def keyOf (schema : Schema) (table : String) (item : Item V) : Option (Key V) := do
  let partition ← item.lookup schema.partition
  let sort ← item.lookup schema.sort
  return ⟨table, partition, sort⟩

private theorem keyOf_eq_some_iff :
    keyOf schema table item = some key ↔ key.table = table ∧ Keyed schema key item := by
  obtain ⟨keyTable, partition, sort⟩ := key
  cases first : item.lookup schema.partition <;> cases second : item.lookup schema.sort <;>
    simp [keyOf, Keyed, first, second, eq_comm]

/-- A request to write one item. -/
inductive Write (V : Type) where
  | put (table : String) (item : Item V) (condition : Condition) (placeholders : Placeholders V)
  | update (key : Key V) (change : Update) (condition : Condition)
      (placeholders : Placeholders V)

/-- What a valid request comes to: its key, whether its condition holds, and the
item it would store. -/
structure Plan (V : Type) where
  key : Key V
  holds : Bool
  item : Item V

/-- How a request fails. -/
inductive CancellationReason where
  | none | conditionalCheckFailed
  deriving DecidableEq

inductive Failure where
  | validation
  | conditionalCheckFailed
  | transactionCanceled (reasons : List CancellationReason)
  deriving DecidableEq

def Plan.reason (plan : Plan V) : CancellationReason :=
  if plan.holds then .none else .conditionalCheckFailed

/-- What a client knows of the service. A request that fails leaves the state it
was made in, so an operation answers with a failure or with the state after it. -/
structure Service (V : Type) [DecidableEq V] (schema : Schema) where
  State : Type
  /-- The items of all tables. -/
  items : State → AList (fun _ : Key V => Item V)
  /-- `GetItem` with a consistent read. -/
  getItem : State → Key V → Item V
  /-- `GetItem` with a consistent read and a `ProjectionExpression`. -/
  getAttributes : State → List String → Key V → Item V
  /-- `PutItem` and `UpdateItem`. -/
  write : State → Write V → Except Failure State
  /-- `TransactWriteItems`. -/
  transact : State → List (Write V) → Except Failure State
  /-- The service takes the request for valid, and in this state it comes to this plan. -/
  Prepares : State → Write V → Plan V → Prop
  /-- An item is stored under its own key. -/
  keyed : ∀ {db key item}, (items db).lookup key = some item → Keyed schema key item
  /-- A consistent read answers with what is stored. -/
  getItem_found : ∀ {db key item}, (items db).lookup key = some item → getItem db key = item
  /-- Where nothing is stored the answer has no attribute. -/
  getItem_missing : ∀ {db key}, (items db).lookup key = none → getItem db key = ∅
  getAttributes_eq : ∀ db attributes key,
    getAttributes db attributes key = (getItem db key).project attributes
  /-- A put is valid if its item has the key attributes and its expression resolves
  and uses every placeholder. -/
  prepares_put : ∀ db {key item condition placeholders holds}, Keyed schema key item →
    placeholders.allUsed condition.uses = true → condition.resolve placeholders = some holds →
    Prepares db (.put key.table item condition placeholders) ⟨key, holds (getItem db key), item⟩
  /-- An update is valid if its changes are allowed, too; it starts from the item
  stored or, where there is none, from one that has its key only. -/
  prepares_update : ∀ db {key update condition placeholders holds changes},
    changes.Allowed schema → placeholders.allUsed (update.uses ++ condition.uses) = true →
    condition.resolve placeholders = some holds → update.resolve placeholders = some changes →
    Prepares db (.update key update condition placeholders)
      ⟨key, holds (getItem db key),
        changes.apply (((items db).lookup key).getD (key.item schema))⟩
  /-- A conditional write is atomic: it is made where its condition holds, -/
  write_done : ∀ {db request plan}, Prepares db request plan → plan.holds = true →
    ∃ db', write db request = .ok db' ∧ items db' = (items db).insert plan.key plan.item
  /-- and refused where it does not. -/
  write_refused : ∀ {db request plan}, Prepares db request plan → plan.holds = false →
    write db request = .error .conditionalCheckFailed
  /-- A transaction is atomic: its writes, no two to one item, are all made if all
  their conditions hold in the state before the first, -/
  transact_done : ∀ {db requests plans}, List.Forall₂ (Prepares db) requests plans →
    (plans.map Plan.key).Nodup → plans.all Plan.holds = true →
    ∃ db', transact db requests = .ok db' ∧
      items db' = plans.foldl (fun items plan => items.insert plan.key plan.item) (items db)
  /-- and else none is, with a reason for each. -/
  transact_canceled : ∀ {db requests plans}, List.Forall₂ (Prepares db) requests plans →
    (plans.map Plan.key).Nodup → plans.all Plan.holds = false →
    transact db requests = .error (.transactionCanceled (plans.map Plan.reason))

variable [DecidableEq V]

namespace Service

variable {S : Service V schema} {db : S.State}

/-- An item is there if its key attributes are. -/
theorem isSome_partition : ((S.getItem db key).lookup schema.partition).isSome =
    ((S.items db).lookup key).isSome := by
  cases found : (S.items db).lookup key with
  | none => simp [S.getItem_missing found]
  | some item => simp [S.getItem_found found, (S.keyed found).1]

theorem isNone_key : (((S.getItem db key).lookup schema.partition).isNone &&
    ((S.getItem db key).lookup schema.sort).isNone) = ((S.items db).lookup key).isNone := by
  cases found : (S.items db).lookup key with
  | none => simp [S.getItem_missing found]
  | some item => simp [S.getItem_found found, (S.keyed found).1]

end Service

/-! ## Tables that keep the laws -/

/-- The tables of a database, each item under its own key. -/
structure Database (V : Type) [DecidableEq V] (schema : Schema) where
  items : AList (fun _ : Key V => Item V)
  keyed : ∀ key item, items.lookup key = some item → Keyed schema key item

instance : EmptyCollection (Database V schema) := ⟨⟨∅, fun _ _ found => by simp at found⟩⟩

namespace Database

variable (db : Database V schema)

def getItem (key : Key V) : Item V := (db.items.lookup key).getD ∅

/-- What an update starts from: the item, or a fresh one. -/
def stored (key : Key V) : Item V := (db.items.lookup key).getD (key.item schema)

private theorem keyed_stored (key : Key V) : Keyed schema key (db.stored key) := by
  unfold stored
  cases found : db.items.lookup key with
  | none => exact key.keyed_item
  | some item => exact db.keyed key item found

/-- The plan of a request, if the service accepts it. -/
def prepare : Write V → Option { plan : Plan V // Keyed schema plan.key plan.item }
  | .put table item condition placeholders =>
    if placeholders.allUsed condition.uses then
      match found : keyOf schema table item with
      | none => none
      | some key => do
        let holds ← condition.resolve placeholders
        return ⟨⟨key, holds (db.getItem key), item⟩, (keyOf_eq_some_iff.mp found).2⟩
    else none
  | .update key change condition placeholders =>
    if placeholders.allUsed (change.uses ++ condition.uses) then do
      let holds ← condition.resolve placeholders
      let changes ← change.resolve placeholders
      if allowed : changes.Allowed schema then
        return ⟨⟨key, holds (db.getItem key), changes.apply (db.stored key)⟩,
          allowed.keyed (db.keyed_stored key)⟩
      else none
    else none

def store (plan : { plan : Plan V // Keyed schema plan.key plan.item }) : Database V schema where
  items := db.items.insert plan.val.key plan.val.item
  keyed key item found := by
    by_cases same : key = plan.val.key
    · subst same
      rw [AList.lookup_insert, Option.some_inj] at found
      exact found ▸ plan.property
    · exact db.keyed key item (by rwa [AList.lookup_insert_ne same] at found)

def write (request : Write V) : Except Failure (Database V schema) :=
  match db.prepare request with
  | none => .error .validation
  | some plan => if plan.val.holds then .ok (db.store plan) else .error .conditionalCheckFailed

/-- All conditions are on the tables as they are before the first write. -/
def transact (requests : List (Write V)) : Except Failure (Database V schema) :=
  match requests.mapM db.prepare with
  | none => .error .validation
  | some plans =>
    if (plans.map (·.val.key)).Nodup then
      if plans.all (·.val.holds) then .ok (plans.foldl store db)
      else .error (.transactionCanceled (plans.map (·.val.reason)))
    else .error .validation

variable {db}

/-- The request is valid and comes to this plan. -/
def Prepares (db : Database V schema) (request : Write V) (plan : Plan V) : Prop :=
  (db.prepare request).map (·.val) = some plan

private theorem mapM_prepare (planned : List.Forall₂ db.Prepares requests plans) :
    ∃ prepared, requests.mapM db.prepare = some prepared ∧ prepared.map (·.val) = plans := by
  induction planned with
  | nil => exact ⟨[], rfl, rfl⟩
  | cons first _ ih =>
    obtain ⟨prepared, ready, rfl⟩ := Option.map_eq_some_iff.mp first
    obtain ⟨rest, restReady, rfl⟩ := ih
    exact ⟨prepared :: rest, by simp [List.mapM_cons, ready, restReady], rfl⟩

private theorem items_foldl_store
    (prepared : List { plan : Plan V // Keyed schema plan.key plan.item })
    (db : Database V schema) :
    (prepared.foldl store db).items =
      (prepared.map (·.val)).foldl (fun items plan => items.insert plan.key plan.item)
        db.items := by
  induction prepared generalizing db with
  | nil => rfl
  | cons first rest ih => exact ih (db.store first)

/-- The service that these tables are. -/
def service : Service V schema where
  State := Database V schema
  items := items
  getItem := getItem
  getAttributes db attributes key := (db.getItem key).project attributes
  write := write
  transact := transact
  Prepares := Prepares
  keyed found := keyed _ _ _ found
  getItem_found found := by simp [getItem, found]
  getItem_missing missing := by simp [getItem, missing]
  getAttributes_eq _ _ _ := rfl
  prepares_put db := by
    intro key item condition placeholders holds keyed used resolved
    have named := keyOf_eq_some_iff.mpr ⟨rfl, keyed⟩
    simp only [Prepares, prepare, used, if_true, resolved]
    split
    · rename_i unnamed
      cases named.symm.trans unnamed
    · rename_i named'
      cases named.symm.trans named'
      rfl
  prepares_update db := by
    intro key update condition placeholders holds changes allowed used resolved filled
    simp [Prepares, prepare, used, resolved, filled, allowed, stored]
  write_done planned met := by
    obtain ⟨prepared, ready, rfl⟩ := Option.map_eq_some_iff.mp planned
    exact ⟨store _ prepared, by simp [write, ready, met], rfl⟩
  write_refused planned unmet := by
    obtain ⟨prepared, ready, rfl⟩ := Option.map_eq_some_iff.mp planned
    simp [write, ready, unmet]
  transact_done planned apart met := by
    obtain ⟨prepared, ready, rfl⟩ := mapM_prepare planned
    refine ⟨prepared.foldl store _, ?_, items_foldl_store prepared _⟩
    simp only [List.map_map, List.all_map, Function.comp_def] at apart met
    simp only [transact, ready]
    rw [if_pos apart, if_pos met]
  transact_canceled planned apart unmet := by
    obtain ⟨prepared, ready, rfl⟩ := mapM_prepare planned
    simp only [List.map_map, List.all_map, Function.comp_def] at apart unmet
    simp only [transact, ready]
    rw [if_pos apart, if_neg (ne_true_of_eq_false unmet), List.map_map]
    rfl

end Database

end DynamoDB
