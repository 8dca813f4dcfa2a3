import IntentX.Basic
import IntentX.Lib.Machine
import IntentX.Lib.Text
import Mathlib.Data.List.Dedup

/-!
# Roles, permissions and what a token opens

`RbacService` keeps roles, who has them, and their permissions.  A request is judged by the strings
of its token instead: `require_perm` looks for one that grants what the route asks for.

`register` puts the permissions of the user's roles into the token, and there the two agree.
`login` puts the names of the roles there, and of these only `admin` grants anything.  Both hold
after any run of assignments (`token_permissions`).
-/

namespace IntentX.Rbac

open Lib Machine Text

structure Role where
  id : Uuid
  name : String
  description : String
  deriving Repr, DecidableEq

/-- A row of `permissions`. -/
structure Permission where
  roleId : Uuid
  resource : String
  action : String
  deriving Repr, DecidableEq

inductive RbacError
  | RoleNotFound (name : String)
  | DbError (e : String)
  deriving Repr, DecidableEq

def RbacError.text : RbacError → String
  | .RoleNotFound name => "Role not found: " ++ name
  | .DbError e => "Database error: " ++ e

/-- The tables, with what the keys and references of the schema enforce. -/
structure RbacDb where
  users : List Uuid
  roles : List Role
  userRoles : List (Uuid × Uuid)
  permissions : List Permission
  roleIds : (roles.map (·.id)).Nodup
  roleNames : (roles.map (·.name)).Nodup
  userRolesKey : userRoles.Nodup
  userOf : ∀ ur ∈ userRoles, ur.1 ∈ users
  roleOf : ∀ ur ∈ userRoles, ∃ r ∈ roles, r.id = ur.2
  permissionOf : ∀ p ∈ permissions, ∃ r ∈ roles, r.id = p.roleId

namespace RbacDb

variable (db : RbacDb)

def getUserRoles (userId : Uuid) : List Role :=
  db.roles.filter fun r => db.userRoles.contains (userId, r.id)

def getUserRoleNames (userId : Uuid) : List String := (db.getUserRoles userId).map (·.name)

/-- `SELECT DISTINCT p.resource, p.action` -/
def getUserPermissions (userId : Uuid) : List (String × String) :=
  ((db.permissions.filter fun p => db.userRoles.contains (userId, p.roleId)).map fun p =>
    (p.resource, p.action)).dedup

def getUserPermissionStrings (userId : Uuid) : List String :=
  (((db.getUserPermissions userId).map fun p => p.1 ++ ":" ++ p.2) ++
    db.getUserRoleNames userId).insertionSort (· ≤ ·) |>.dedup

def hasRole (userId : Uuid) (roleName : String) : Bool :=
  (db.getUserRoles userId).any fun r => r.name == roleName

def hasPermission (userId : Uuid) (resource action : String) : Bool :=
  db.permissions.any fun p => db.userRoles.contains (userId, p.roleId) &&
    (p.resource == resource || p.resource == "*") && (p.action == action || p.action == "*")

/-- `ON CONFLICT (user_id, role_id) DO NOTHING`, and the user has to be there. -/
def assign (userId : Uuid) (role : Role) (hr : role ∈ db.roles) : Except RbacError RbacDb :=
  if hu : userId ∈ db.users then
    if hc : (userId, role.id) ∈ db.userRoles then .ok db
    else .ok { db with
      userRoles := (userId, role.id) :: db.userRoles
      userRolesKey := List.nodup_cons.2 ⟨hc, db.userRolesKey⟩
      userOf := List.forall_mem_cons.2 ⟨hu, db.userOf⟩
      roleOf := List.forall_mem_cons.2 ⟨⟨role, hr, rfl⟩, db.roleOf⟩ }
  else .error (.DbError "violates foreign key constraint")

def assignRole (userId : Uuid) (roleName : String) : Except RbacError RbacDb :=
  match h : db.roles.find? fun r => r.name == roleName with
  | none => .error (.RoleNotFound roleName)
  | some role => db.assign userId role (List.mem_of_find?_eq_some h)

/-- A row of `users`. -/
def addUser (userId : Uuid) : RbacDb :=
  { db with
    users := userId :: db.users
    userOf := fun ur h => List.mem_cons_of_mem _ (db.userOf ur h) }

end RbacDb

/-! ## The tokens -/

/-- The permissions of the token that `register` hands out; `served` is whether the query is. -/
def registerRoles (db : RbacDb) (userId : Uuid) (served : Bool) : List String :=
  if served then db.getUserPermissionStrings userId else ["trader"]

/-- The permissions of the token that `login` hands out. -/
def loginRoles (db : RbacDb) (userId : Uuid) (served : Bool) : List String :=
  if served then db.getUserRoleNames userId else []

/-! ## The middleware -/

/-- Resource and action of what a route asks for. -/
def requiredParts (required : String) : String × String :=
  match splitn ':' 2 required.toList with
  | [resource, action] => (String.ofList resource, String.ofList action)
  | _ => (required, "*")

/-- Whether one permission of a request grants what is required. -/
def grants (required p : String) : Bool :=
  let (resource, action) := requiredParts required
  p == "admin" || p == "*:*" || p == required || p == resource ++ ":*" ||
    (action == "*" && (resource ++ ":").toList.isPrefixOf p.toList)

def hasPermission (permissions : List String) (required : String) : Bool :=
  permissions.any (grants required)

/-- The answer of `require_perm` to a request with these permissions, none if it goes on. -/
def requirePerm (permission : String) (permissions : List String) : Option (Nat × String) :=
  if permissions.isEmpty then some (401, "No permissions found")
  else if !hasPermission permissions permission then
    some (403, "Permission '" ++ permission ++ "' required")
  else none

def requireRole (role : String) (permissions : List String) : Option (Nat × String) :=
  requirePerm role permissions

theorem requirePerm_none {permission : String} {permissions : List String} :
    requirePerm permission permissions = none ↔ hasPermission permissions permission = true := by
  unfold requirePerm
  cases permissions with
  | nil => simp [hasPermission]
  | cons p ps =>
    rw [if_neg (by simp)]
    cases hasPermission (p :: ps) permission <;> simp

section Grants

variable {resource action r a p : String}

theorem requiredParts_join (hr : ':' ∉ resource.toList) :
    requiredParts (resource ++ ":" ++ action) = (resource, action) := by
  have hsplit : splitn ':' 2 (resource ++ ":" ++ action).toList = [resource.toList, action.toList] := by
    rw [String.toList_append, String.toList_append, List.append_assoc]
    exact splitn_append hr
  unfold requiredParts
  rw [hsplit]
  simp only [String.ofList_toList]

/-- Of a text without `:` before its first one, the parts are told apart. -/
theorem join_inj (hr : ':' ∉ r.toList) (hr' : ':' ∉ resource.toList) :
    r ++ ":" ++ a = resource ++ ":" ++ action ↔ r = resource ∧ a = action := by
  constructor
  · intro h
    have hl : r.toList ++ ':' :: a.toList = resource.toList ++ ':' :: action.toList := by
      simpa [String.toList_append] using congrArg String.toList h
    rcases cut_of_notMem hr' hl with ⟨h₁, h₂⟩ | ⟨m, hm, -⟩
    · exact ⟨String.toList_injective h₁, String.toList_injective h₂⟩
    · exact absurd (by rw [hm]; simp) hr
  · rintro ⟨rfl, rfl⟩
    rfl

theorem grants_iff (hr : ':' ∉ resource.toList) (ha : action ≠ "*") :
    grants (resource ++ ":" ++ action) p = true ↔
      p = "admin" ∨ p = "*:*" ∨ p = resource ++ ":" ++ action ∨ p = resource ++ ":*" := by
  unfold grants
  rw [requiredParts_join hr]
  simp [ha, or_assoc]

/-- A name without `:` grants nothing, unless it is `admin`. -/
theorem grants_of_plain (hr : ':' ∉ resource.toList) (ha : action ≠ "*") (hp : ':' ∉ p.toList) :
    grants (resource ++ ":" ++ action) p = true ↔ p = "admin" := by
  rw [grants_iff hr ha]
  refine ⟨fun h => ?_, .inl⟩
  rcases h with h | rfl | rfl | rfl
  · exact h
  · exact absurd (by decide) hp
  · exact absurd (by simp [String.toList_append]) hp
  · exact absurd (by simp [String.toList_append]) hp

/-- The string of a permission grants what the permission is, or what it leaves open. -/
theorem grants_join (hr : ':' ∉ resource.toList) (ha : action ≠ "*") (hp : ':' ∉ r.toList) :
    grants (resource ++ ":" ++ action) (r ++ ":" ++ a) = true ↔
      (r = "*" ∧ a = "*") ∨ (r = resource ∧ (a = action ∨ a = "*")) := by
  have hadmin : r ++ ":" ++ a ≠ "admin" := by
    intro h
    have hmem : ':' ∈ ("admin" : String).toList := by
      rw [← h]
      simp [String.toList_append]
    exact absurd hmem (by decide)
  have hstar : r ++ ":" ++ a = "*:*" ↔ r = "*" ∧ a = "*" :=
    show r ++ ":" ++ a = "*" ++ ":" ++ "*" ↔ r = "*" ∧ a = "*" from join_inj hp (by decide)
  have hopen : r ++ ":" ++ a = resource ++ ":*" ↔ r = resource ∧ a = "*" := by
    have hsame : resource ++ ":*" = resource ++ ":" ++ "*" := by
      apply String.toList_injective
      simp [String.toList_append]
    rw [hsame]
    exact join_inj hp hr
  rw [grants_iff hr ha, hstar, join_inj hp hr, hopen]
  constructor
  · rintro (h | h | ⟨h, ha⟩ | ⟨h, ha⟩)
    · exact absurd h hadmin
    · exact .inl h
    · exact .inr ⟨h, .inl ha⟩
    · exact .inr ⟨h, .inr ha⟩
  · rintro (h | ⟨h, ha | ha⟩)
    · exact .inr (.inl h)
    · exact .inr (.inr (.inl ⟨h, ha⟩))
    · exact .inr (.inr (.inr ⟨h, ha⟩))

end Grants

/-! ## The seeds -/

def adminRole : Uuid := 0x10000000000000000000000000000001

def traderRole : Uuid := 0x10000000000000000000000000000002

def solverRole : Uuid := 0x10000000000000000000000000000003

def readOnlyRole : Uuid := 0x10000000000000000000000000000004

/-- The default roles of `018_rbac.sql`. -/
def seedRoles : List Role :=
  [⟨adminRole, "admin", "Full platform access"⟩,
    ⟨traderRole, "trader", "Can create intents, deposit, withdraw"⟩,
    ⟨solverRole, "solver", "Can submit bids and view auctions"⟩,
    ⟨readOnlyRole, "read_only", "Can only view data"⟩]

/-- The permissions of `018_rbac.sql` and of `026_granular_permissions.sql`. -/
def seedPermissions : List Permission :=
  [⟨adminRole, "*", "*"⟩,
    ⟨traderRole, "intents", "create"⟩, ⟨traderRole, "intents", "read"⟩,
    ⟨traderRole, "intents", "cancel"⟩, ⟨traderRole, "balances", "read"⟩,
    ⟨traderRole, "balances", "deposit"⟩, ⟨traderRole, "balances", "withdraw"⟩,
    ⟨traderRole, "markets", "read"⟩, ⟨traderRole, "trades", "read"⟩,
    ⟨solverRole, "bids", "create"⟩, ⟨solverRole, "bids", "read"⟩, ⟨solverRole, "intents", "read"⟩,
    ⟨solverRole, "markets", "read"⟩, ⟨solverRole, "auctions", "read"⟩,
    ⟨readOnlyRole, "intents", "read"⟩, ⟨readOnlyRole, "markets", "read"⟩,
    ⟨readOnlyRole, "trades", "read"⟩, ⟨readOnlyRole, "balances", "read"⟩,
    ⟨traderRole, "intent", "create"⟩, ⟨traderRole, "intent", "read"⟩,
    ⟨traderRole, "balance", "deposit"⟩, ⟨traderRole, "balance", "withdraw"⟩,
    ⟨traderRole, "balance", "read"⟩, ⟨traderRole, "market", "read"⟩, ⟨traderRole, "trade", "read"⟩,
    ⟨solverRole, "bid", "create"⟩, ⟨solverRole, "intent", "read"⟩, ⟨solverRole, "market", "read"⟩,
    ⟨solverRole, "trade", "read"⟩,
    ⟨readOnlyRole, "intent", "read"⟩, ⟨readOnlyRole, "market", "read"⟩,
    ⟨readOnlyRole, "trade", "read"⟩, ⟨readOnlyRole, "balance", "read"⟩]

/-- The tables after the migrations. -/
def seeded : RbacDb where
  users := []
  roles := seedRoles
  userRoles := []
  permissions := seedPermissions
  roleIds := by decide
  roleNames := by decide
  userRolesKey := List.nodup_nil
  userOf := nofun
  roleOf := nofun
  permissionOf := by decide

/-! ## Runs -/

inductive Event
  | user (userId : Uuid)
  | assign (userId : Uuid) (roleName : String)
  deriving Repr, DecidableEq

/-- An assignment that fails changes nothing. -/
def step (db : RbacDb) : Event → RbacDb
  | .user userId => db.addUser userId
  | .assign userId roleName =>
    match db.assignRole userId roleName with
    | .ok db' => db'
    | .error _ => db

/-- No name has a `:`, a permission on every resource is one for every action, and `admin` has it. -/
structure Plain (db : RbacDb) : Prop where
  names : ∀ r ∈ db.roles, ':' ∉ r.name.toList
  resources : ∀ p ∈ db.permissions, ':' ∉ p.resource.toList
  wildcards : ∀ p ∈ db.permissions, p.resource = "*" → p.action = "*"
  admin : ∀ r ∈ db.roles, r.name = "admin" →
    ∃ p ∈ db.permissions, p.roleId = r.id ∧ p.resource = "*" ∧ p.action = "*"

theorem plain_seeded : Plain seeded :=
  ⟨by decide, by decide, by decide, by decide⟩

/-- A step leaves the roles and the permissions alone. -/
theorem step_tables (db : RbacDb) (e : Event) :
    (step db e).roles = db.roles ∧ (step db e).permissions = db.permissions := by
  cases e with
  | user userId => exact ⟨rfl, rfl⟩
  | assign userId roleName =>
    have hok : ∀ db', db.assignRole userId roleName = .ok db' →
        db'.roles = db.roles ∧ db'.permissions = db.permissions := by
      intro db' h
      unfold RbacDb.assignRole at h
      split at h
      · exact nomatch h
      · unfold RbacDb.assign at h
        split at h
        · split at h <;> obtain rfl := Except.ok.inj h <;> exact ⟨rfl, rfl⟩
        · exact nomatch h
    show (match db.assignRole userId roleName with | .ok db' => db' | .error _ => db).roles = _ ∧
      (match db.assignRole userId roleName with | .ok db' => db' | .error _ => db).permissions = _
    cases h : db.assignRole userId roleName with
    | ok db' => exact hok db' h
    | error e => exact ⟨rfl, rfl⟩

theorem plain_step {db : RbacDb} (h : Plain db) (e : Event) : Plain (step db e) := by
  obtain ⟨hroles, hpermissions⟩ := step_tables db e
  exact ⟨by rw [hroles]; exact h.names, by rw [hpermissions]; exact h.resources,
    by rw [hpermissions]; exact h.wildcards, by rw [hroles, hpermissions]; exact h.admin⟩

theorem plain_run (es : List Event) : Plain (run step seeded es) :=
  run_keeps (C := fun _ _ => True) (fun _ e h _ => plain_step h e) plain_seeded (each_true seeded es)

section Decisions

variable {db : RbacDb} {userId : Uuid} {resource action s : String}

theorem mem_getUserRoles {r : Role} :
    r ∈ db.getUserRoles userId ↔ r ∈ db.roles ∧ (userId, r.id) ∈ db.userRoles := by
  simp [RbacDb.getUserRoles]

theorem mem_getUserPermissions {p : String × String} : p ∈ db.getUserPermissions userId ↔
    ∃ q ∈ db.permissions, (userId, q.roleId) ∈ db.userRoles ∧ (q.resource, q.action) = p := by
  simp [RbacDb.getUserPermissions, and_assoc]

theorem mem_getUserPermissionStrings : s ∈ db.getUserPermissionStrings userId ↔
    (∃ p ∈ db.getUserPermissions userId, p.1 ++ ":" ++ p.2 = s) ∨ s ∈ db.getUserRoleNames userId := by
  unfold RbacDb.getUserPermissionStrings
  rw [List.mem_dedup, List.mem_insertionSort, List.mem_append, List.mem_map]

theorem hasRole_iff : db.hasRole userId "admin" = true ↔ "admin" ∈ db.getUserRoleNames userId := by
  simp [RbacDb.hasRole, RbacDb.getUserRoleNames]

theorem hasPermission_iff : db.hasPermission userId resource action = true ↔
    ∃ p ∈ db.getUserPermissions userId,
      (p.1 = resource ∨ p.1 = "*") ∧ (p.2 = action ∨ p.2 = "*") := by
  unfold RbacDb.hasPermission
  rw [List.any_eq_true]
  constructor
  · rintro ⟨q, hq, h⟩
    simp only [Bool.and_eq_true, Bool.or_eq_true, beq_iff_eq, List.contains_iff_mem] at h
    exact ⟨_, mem_getUserPermissions.2 ⟨q, hq, h.1.1, rfl⟩, h.1.2, h.2⟩
  · rintro ⟨p, hp, hres, hact⟩
    obtain ⟨q, hq, hur, rfl⟩ := mem_getUserPermissions.1 hp
    refine ⟨q, hq, ?_⟩
    simp only [Bool.and_eq_true, Bool.or_eq_true, beq_iff_eq, List.contains_iff_mem]
    exact ⟨⟨hur, hres⟩, hact⟩

theorem name_plain (h : Plain db) (hs : s ∈ db.getUserRoleNames userId) : ':' ∉ s.toList := by
  obtain ⟨r, hr, rfl⟩ := List.mem_map.1 hs
  exact h.names r (mem_getUserRoles.1 hr).1

/-- Who has the role `admin` has the permission for everything. -/
theorem admin_permission (h : Plain db) (hs : "admin" ∈ db.getUserRoleNames userId) :
    ("*", "*") ∈ db.getUserPermissions userId := by
  obtain ⟨r, hr, hname⟩ := List.mem_map.1 hs
  obtain ⟨hmem, hur⟩ := mem_getUserRoles.1 hr
  obtain ⟨p, hp, hrole, hres, hact⟩ := h.admin r hmem hname
  exact mem_getUserPermissions.2 ⟨p, hp, by rw [hrole]; exact hur, by rw [hres, hact]⟩

theorem login_iff (h : Plain db) (hr : ':' ∉ resource.toList) (ha : action ≠ "*") :
    hasPermission (db.getUserRoleNames userId) (resource ++ ":" ++ action) = true ↔
      db.hasRole userId "admin" = true := by
  unfold hasPermission
  rw [hasRole_iff, List.any_eq_true]
  constructor
  · rintro ⟨s, hs, hgrants⟩
    rwa [(grants_of_plain hr ha (name_plain h hs)).1 hgrants] at hs
  · exact fun hs => ⟨"admin", hs, (grants_iff hr ha).2 (.inl rfl)⟩

theorem register_iff (h : Plain db) (hr : ':' ∉ resource.toList) (ha : action ≠ "*") :
    hasPermission (db.getUserPermissionStrings userId) (resource ++ ":" ++ action) = true ↔
      db.hasPermission userId resource action = true := by
  unfold hasPermission
  rw [hasPermission_iff, List.any_eq_true]
  have hplain : ∀ p ∈ db.getUserPermissions userId, ':' ∉ p.1.toList := by
    intro p hp
    obtain ⟨q, hq, -, rfl⟩ := mem_getUserPermissions.1 hp
    exact h.resources q hq
  constructor
  · rintro ⟨s, hs, hgrants⟩
    rcases mem_getUserPermissionStrings.1 hs with ⟨p, hp, rfl⟩ | hs
    · rcases (grants_join hr ha (hplain p hp)).1 hgrants with ⟨hres, hact⟩ | ⟨hres, hact⟩
      · exact ⟨p, hp, .inr hres, .inr hact⟩
      · exact ⟨p, hp, .inl hres, hact⟩
    · rw [(grants_of_plain hr ha (name_plain h hs)).1 hgrants] at hs
      exact ⟨_, admin_permission h hs, .inr rfl, .inr rfl⟩
  · rintro ⟨p, hp, hres, hact⟩
    refine ⟨_, mem_getUserPermissionStrings.2 (.inl ⟨p, hp, rfl⟩), ?_⟩
    rw [grants_join hr ha (hplain p hp)]
    rcases hres with hres | hres
    · exact .inr ⟨hres, hact⟩
    · obtain ⟨q, hq, -, rfl⟩ := mem_getUserPermissions.1 hp
      exact .inl ⟨hres, h.wildcards q hq hres⟩

end Decisions

/-- **What a token opens**, after any registrations and assignments from the seeds on: the token of
`register` opens a guarded route to whom the service grants what the route asks for, and the token
of `login` only to who has the role `admin`. -/
theorem token_permissions (es : List Event) (userId : Uuid) (resource action : String)
    (hr : ':' ∉ resource.toList) (ha : action ≠ "*") :
    (requirePerm (resource ++ ":" ++ action) (registerRoles (run step seeded es) userId true) = none ↔
      (run step seeded es).hasPermission userId resource action = true) ∧
    (requirePerm (resource ++ ":" ++ action) (loginRoles (run step seeded es) userId true) = none ↔
      (run step seeded es).hasRole userId "admin" = true) := by
  have hplain := plain_run es
  exact ⟨requirePerm_none.trans (register_iff hplain hr ha),
    requirePerm_none.trans (login_iff hplain hr ha)⟩

/-- A trader can create intents with the token of the registration, but not after the next login. -/
theorem trader_permissions :
    requirePerm "intent:create"
      (registerRoles (run step seeded [.user 7, .assign 7 "trader"]) 7 true) = none ∧
    requirePerm "intent:create"
      (loginRoles (run step seeded [.user 7, .assign 7 "trader"]) 7 true) ≠ none := by
  have h := token_permissions [.user 7, .assign 7 "trader"] 7 "intent" "create" (by decide) (by decide)
  refine ⟨h.1.2 (by decide +kernel), fun hlogin => ?_⟩
  have hadmin := h.2.1 hlogin
  revert hadmin
  decide +kernel

end IntentX.Rbac
