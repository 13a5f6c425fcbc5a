import Rollout.Failure

/-!
# Images

What a job runs: a repository and an identifier in it. An identifier that is a content digest is
pinned with an at sign, any other is a tag after a colon.
-/

namespace Rollout

/-- An image of a repository. The two parts are put together when a container is started, and only
then have to be texts. -/
structure Image where
  repo : Value
  id : Value

namespace Image

/-- An identifier is a content digest. -/
def isDigest (id : String) : Bool := "sha256:".toList.isPrefixOf id.toList

/-- The reference that a scheduler is given. -/
def reference (repo id : String) : String :=
  if isDigest id then repo ++ "@" ++ id else repo ++ ":" ++ id

/-- The reference of an image whose identifier is a text. The repository may be a value of any kind,
and is shown as it is. -/
def reference? (image : Image) : Except Failure String :=
  match image.id with
  | .text id => do return reference (← image.repo.shown?) id
  | _ => .error .lacking

end Image

end Rollout
