import EntityRest.Error
import EntityRest.Schema.Entity

/-!
Checking rules: the rules of an operation are tried in order, and the first that does not hold
denies the request. Without a user the denial is a missing authentication, with one it is a refusal.
-/

namespace EntityRest

/-- Why a request is denied. -/
inductive Denial where
  | unauthenticated (message : String)
  | forbidden (message : String)
deriving DecidableEq

namespace Denial

def message : Denial → String
  | unauthenticated m => m
  | forbidden m => m

def toApiError : Denial → ApiError
  | unauthenticated m => .unauthorized m
  | forbidden m => .forbidden m

end Denial

/-- Whether a stored value is the id of a user: as a string, or as a number with that text. -/
def Json.isIdText (id : String) : Json → Bool
  | .str s => s == id
  | .num n => n.text == id
  | _ => false

namespace Rule

/-- The key column by which an owner rule compares, when the rule itself names none. -/
def ownerKey (e : Entity) (field : Option String) : String :=
  (field <|> e.ownerField).getD "userId"

/-- Whether a rule holds; an error is a denial with a text of its own. -/
def evaluate (e : Entity) (ctx : RuleContext) : Rule → Except String Bool
  | everyone => .ok true
  | authenticated => .ok ctx.user.isSome
  | admin => .ok (ctx.user.elim false User.isAdmin)
  | owner field =>
    match ctx.user, ctx.resource with
    | none, _ => .ok false
    | some _, none => .ok true
    | some u, some record =>
      .ok ((record.field? (ownerKey e field)).elim false (·.isIdText u.id))
  | custom test => test ctx

end Rule

namespace Access

/-- The denial of a rule that does not hold; `message` is its own text, if it has one. -/
def denial (user : Option User) (message : Option String) : Denial :=
  match user with
  | none => .unauthenticated (message.getD "Authentication required")
  | some _ => .forbidden (message.getD "Permission denied")

/-- Tries rules in order. -/
def checkAll (e : Entity) (ctx : RuleContext) : List Rule → Except Denial Unit
  | [] => .ok ()
  | rule :: rules =>
    match rule.evaluate e ctx with
    | .ok true => checkAll e ctx rules
    | .ok false => .error (denial ctx.user none)
    | .error message => .error (denial ctx.user (some message))

/-- Tries the rules of an operation; an operation without a rule list is allowed. -/
def check (e : Entity) (op : Operation) (ctx : RuleContext) : Except Denial Unit :=
  match e.rulesFor op with
  | none => .ok ()
  | some rules => checkAll e ctx rules

end Access

end EntityRest
