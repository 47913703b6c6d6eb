import EntityRest.Describe.Plugin
import EntityRest.Routing.Router
import EntityRest.Service.Rest

/-!
The configuration of a service, its routes, and its responses as JSON.
-/

namespace EntityRest

instance : ToJson User := ⟨User.toJson⟩

instance : ToJson CorsConfig where
  toJson c := Json.object
    [("enabled", .bool c.enabled), ("allowedOrigins", toJson c.allowedOrigins),
      ("allowedMethods", toJson c.allowedMethods), ("allowedHeaders", toJson c.allowedHeaders),
      ("maxAge", toJson c.maxAge)]

instance : ToJson Config where
  toJson c := Json.object
    [("environment", .str c.environment.name), ("securityHeaders", .bool c.securityHeaders),
      ("serviceName", .str c.serviceName), ("cors", toJson c.cors)]

/-- Insertion of a pair into a list sorted by the first component, after equal ones. -/
def Headers.insertByName (p : String × String) : List (String × String) → List (String × String)
  | [] => [p]
  | q :: l => if p.1 < q.1 then p :: q :: l else q :: insertByName p l

/-- Headers sorted by name; the length of the body goes without saying. -/
instance : ToJson Headers where
  toJson h :=
    let listed := h.pairs.filter fun p => p.1 ≠ "content-length"
    toJson (listed.foldl (fun l p => Headers.insertByName p l) [])

instance : ToJson Response where
  toJson r := Json.object
    [("status", toJson r.status), ("headers", toJson r.headers), ("body", r.body)]

/-- A body that is no JSON document is shown as text. -/
instance : ToJson Rest.Outgoing where
  toJson r := Json.object
    [("status", toJson r.status), ("headers", toJson r.headers),
      ("body", (Json.ofText? r.body).getD (Json.object [("text", .str r.body)]))]

instance : ToJson RouteMatch where
  toJson
    | .health => .str "health"
    | .disabled => .str "disabled"
    | .notFound => .str "notFound"
    | .route r i params => Json.object
      [("route", .str r.key), ("index", toJson i), ("params", toJson params)]
    | .entity m => Json.object
      [("entity", .str m.entity), ("operation", toJson m.operation), ("id", toJson m.id),
        ("pluginId", toJson m.pluginId), ("custom", .bool m.customHandler.isSome)]

instance : ToJson RouteInfo where
  toJson i := Json.object
    [("method", .str i.method), ("path", .str i.path), ("entity", .str i.entity),
      ("operation", toJson i.operation), ("pluginId", toJson i.pluginId)]

end EntityRest
