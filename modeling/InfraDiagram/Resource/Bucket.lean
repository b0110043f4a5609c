import InfraDiagram.Fragment.Literal
import InfraDiagram.Resource.Property

/-!
# Declaring buckets

A bucket is private, unless an index page makes it a website; then its address is an output. Files
to put into it make a deployment. Buckets are outside all networks.
-/

namespace InfraDiagram.Resource

open Fragment (Step)
open Literal (escape)

/-- What the properties of a bucket say. -/
structure Bucket where
  index : Option String
  errorPage : String
  appPath : Option String
  deriving DecidableEq, Repr

namespace Bucket

/-- The error page of a website that names none. -/
def defaultErrorPage : String := "error.html"

/-- A bucket from the properties of its node. -/
def ofNode (n : Node) : Except CompileError Bucket := do
  let index ← n.text? Property.indexDocument
  let errorPage ← n.text? Property.errorDocument
  let appPath ← n.text? Property.appPath
  .ok { index, errorPage := errorPage.getD defaultErrorPage, appPath }

/-- Who may read the bucket. -/
def visibility (b : Bucket) : List Step :=
  match b.index with
  | some index =>
    [.line "public_read_access=True,",
      .line "block_public_access=s3.BlockPublicAccess.BLOCK_ACLS,",
      .line ("website_index_document='" ++ escape index ++ "',"),
      .line ("website_error_document='" ++ escape b.errorPage ++ "',")]
  | none => [.line "public_read_access=False,"]

/-- The declaration of the bucket itself. -/
def declaration (b : Bucket) (symbol : Symbol) : List Step :=
  [.use .s3,
    .line (symbol.var ++ " = s3.Bucket(self, '" ++ symbol.resource ++ "',"),
    .indent,
    .line "auto_delete_objects=True,"]
  ++ b.visibility
  ++ [.line "removal_policy= cdk.RemovalPolicy.DESTROY",
    .dedent,
    .line ")",
    .define symbol.var]

/-- The deployment that fills a bucket. -/
def deployment (symbol : Symbol) (path : String) : List Step :=
  [.use .s3Deployment,
    .line ("s3_deployment.BucketDeployment(self, '" ++ (symbol.satellite .deployment).resource
      ++ "',"),
    .indent,
    .line ("sources=[s3_deployment.Source.asset('" ++ escape path ++ "')],"),
    .line ("destination_bucket=" ++ symbol.var),
    .dedent,
    .line ")"]

/-- The output that gives a website's address. -/
def address (nodeId : String) (symbol : Symbol) : Output :=
  ⟨nodeId, symbol.resource ++ " Website URL", symbol.var ++ ".bucket_website_url"⟩

/-- All steps of a bucket's fragment. -/
def steps (b : Bucket) (nodeId : String) (symbol : Symbol) : List Step :=
  b.declaration symbol
    ++ (match b.appPath with
      | some path => deployment symbol path
      | none => [])
    ++ (if b.index.isSome then [.output (address nodeId symbol)] else [])

end Bucket

end InfraDiagram.Resource
