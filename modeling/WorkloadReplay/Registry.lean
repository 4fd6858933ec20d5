import WorkloadReplay.Client.Error

/-!
# Registries

The databases and workloads that settings can name.
-/

namespace WorkloadReplay

/-- Named things, in the order of their names, each name once. -/
structure Named (α : Type) where
  entries : List (String × α)

namespace Named

variable {α : Type}

/-- Nothing. -/
def empty : Named α := ⟨[]⟩

/-- Entries in order with one more, in place of one with the same name. -/
def insertEntry (name : String) (value : α) : List (String × α) → List (String × α)
  | [] => [(name, value)]
  | (n, v) :: rest =>
    if name < n then (name, value) :: (n, v) :: rest
    else if name = n then (name, value) :: rest
    else (n, v) :: insertEntry name value rest

/-- Registers a thing under a name. -/
def register (r : Named α) (name : String) (value : α) : Named α :=
  ⟨insertEntry name value r.entries⟩

/-- The names, in order. -/
def names (r : Named α) : List String := r.entries.map (·.1)

/-- The thing of a name; `kind` says in the error what was looked for. -/
def find (r : Named α) (kind name : String) : Except ClientError α :=
  match r.entries.find? (·.1 = name) with
  | some (_, v) => .ok v
  | none =>
    .error (.unknownPlugin kind name
      (if r.names.isEmpty then "none" else String.intercalate ", " r.names))

end Named

/-- The databases and workloads for payloads of type `P`. -/
structure Registry (δ ω P : Type) where
  databases : Named (Database δ P)
  workloads : Named (Workload ω P)

namespace Registry

variable {δ ω P : Type}

/-- The database of a name. -/
def database (r : Registry δ ω P) (name : String) : Except ClientError (Database δ P) :=
  r.databases.find "database" name

/-- The workload of a name. -/
def workload (r : Registry δ ω P) (name : String) : Except ClientError (Workload ω P) :=
  r.workloads.find "workload" name

end Registry

end WorkloadReplay
