import QueryGate.Config.Basic

/-!
# The example configuration

What is served when no configuration is given: posts with their comments and authors.
-/

namespace QueryGate.Console

/-- The entity of the posts. -/
def examplePosts : Entity where
  name := "posts"
  attributes := ["id", "title", "index", "position", "tenant_id", "created_at"]
  relations := [⟨"comments", .hasMany, "comments"⟩, ⟨"author", .belongsTo, "users"⟩]

/-- The entity of the comments. -/
def exampleComments : Entity where
  name := "comments"
  attributes := ["id", "text", "post_id", "user_id"]
  relations := [⟨"user", .belongsTo, "users"⟩]

/-- The entity of the users. -/
def exampleUsers : Entity where
  name := "users"
  attributes := ["id", "name"]

/-- What may be asked of posts: those of one tenant, at most twenty at a time. -/
def examplePostsSpec : Spec :=
  (({} : Spec).withClauseBound .limit ⟨1, 20⟩).withStaticAttribute "tenant_id" (.int 1)
    |>.withInclude "comments" (({} : Spec).withInclude "user" {})
    |>.withInclude "author" (({} : Spec).withAttributes ["id", "name"])

/-- The example configuration. -/
def exampleConfig : Config where
  schema := (({} : Schema).insert examplePosts).insert exampleComments |>.insert exampleUsers
  filters := [("posts", examplePostsSpec)]

end QueryGate.Console
