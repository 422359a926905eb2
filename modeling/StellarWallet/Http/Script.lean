import StellarWallet.Http.Exchange

/-!
Servers given by a script.

A route answers the requests whose link starts with its stem, with its replies in order; the last
one is repeated. The first route that fits counts.
-/

namespace StellarWallet

structure Route where
  stem : String
  replies : List Reply

namespace Route

/-- The request is for this route. -/
def takes (route : Route) (request : Request) : Bool :=
  route.stem.toList.isPrefixOf request.url.toList

/-- The position of the route of a request. -/
def find? (routes : List Route) (request : Request) : Option Nat :=
  routes.findIdx? fun route => route.takes request

/-- The reply when nothing is found. -/
def unreachable : Reply := .failure ⟨.connection, "no route"⟩

/-- The server that follows a script. -/
def server (routes : List Route) : Server := fun past request =>
  match find? routes request with
  | none => unreachable
  | some i =>
    let used := past.countP fun r => find? routes r = some i
    let replies := (routes[i]?.map (·.replies)).getD []
    match replies[used]? with
    | some reply => reply
    | none => replies.getLast?.getD unreachable

end Route

end StellarWallet
