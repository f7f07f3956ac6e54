import InventorySync.Digest.Md5
import InventorySync.Json.Writer
import InventorySync.Record
import InventorySync.Schema.Catalog

/-! # From documents to records

A document of the cluster becomes a record: its identity is read from fixed places, the parts that
never belong into the inventory are dropped, and the rest is fingerprinted. The fingerprint is
taken with the volatile metadata set to null, so that documents which differ in nothing else have
the same one; the record keeps the values. -/

namespace InventorySync

/-- The annotation in which command line tools keep what they applied last. -/
def lastAppliedKey : String := "kubectl.kubernetes.io/last-applied-configuration"

/-- The metadata that changes without the content changing. -/
def volatileMetadata : List String := ["resourceVersion", "creationTimestamp", "generation"]

/-- What is done with kinds outside the catalog. -/
inductive KindPolicy where
  /-- They are refused. -/
  | strict
  /-- They are taken as generic documents. -/
  | passthrough
deriving DecidableEq, Repr, Inhabited

/-- Why a document gives no record. -/
inductive Malformed where
  | empty
  | notAnObject
  | missing (field : String)
  | metadataNotAnObject
  | unknownKind (apiVersion kind : String)
deriving DecidableEq, Repr

/-- The text of the error. -/
def Malformed.message : Malformed → String
  | .empty => "malformed resource: empty document"
  | .notAnObject => "malformed resource: document is not an object"
  | .missing field => "malformed resource: missing " ++ field
  | .metadataNotAnObject => "malformed resource: metadata is not an object"
  | .unknownKind apiVersion kind =>
    "malformed resource: no payload shape for " ++ apiVersion ++ "/" ++ kind

namespace Document

/-- A member that is a string with at least one character. -/
def nonEmptyString? (ms : Members) (name : String) : Option String :=
  ((Members.get? ms name).bind Json.asString?).filter (· ≠ "")

/-- A document that says what it is: the members of the whole and of its metadata, and what
identifies it. -/
structure Identified where
  members : Members
  metadata : Members
  apiVersion : String
  kind : String
  uid : String

/-- Reads a document's identity; of several faults the first in reading order is reported. -/
def identify (doc : Json) : Except Malformed Identified :=
  match doc with
  | .null => .error .empty
  | .object [] => .error .empty
  | .object ms =>
    match nonEmptyString? ms "apiVersion" with
    | none => .error (.missing "apiVersion")
    | some apiVersion =>
      match nonEmptyString? ms "kind" with
      | none => .error (.missing "kind")
      | some kind =>
        match Members.get? ms "metadata" with
        | none => .error (.missing "metadata")
        | some (.object metadata) =>
          match nonEmptyString? metadata "uid" with
          | none => .error (.missing "metadata.uid")
          | some uid => .ok ⟨ms, metadata, apiVersion, kind, uid⟩
        | some _ => .error .metadataNotAnObject
  | _ => .error .notAnObject

/-- Whether the kind is acceptable: a known kind needs a name, an unknown one a lenient policy. -/
def checkKind (policy : KindPolicy) (d : Identified) : Except Malformed Unit :=
  if isKnownKind d.apiVersion d.kind then
    match (Members.get? d.metadata "name").bind Json.asString? with
    | some _ => .ok ()
    | none => .error (.missing "metadata.name")
  else
    match policy with
    | .strict => .error (.unknownKind d.apiVersion d.kind)
    | .passthrough => .ok ()

/-- Metadata without the last applied configuration among its annotations, and without annotations
when there is none left. -/
def stripAnnotations (metadata : Members) : Members :=
  match Members.get? metadata "annotations" with
  | some (.object annotations) =>
    match Members.erase annotations lastAppliedKey with
    | [] => Members.erase metadata "annotations"
    | kept => Members.insert "annotations" (.object kept) metadata
  | _ => metadata

/-- Metadata without what never belongs into a record. -/
def strip (metadata : Members) : Members :=
  stripAnnotations (Members.erase metadata "managedFields")

/-- Metadata with every volatile field null, whether it was there or not. -/
def blankVolatile (metadata : Members) : Members :=
  volatileMetadata.foldl (fun ms name => Members.insert name .null ms) metadata

/-- The document that the fingerprint is taken of. -/
def fingerprinted (ms metadata : Members) : Json :=
  .object (Members.insert "metadata" (.object (blankVolatile metadata)) ms)

/-- The fingerprint: the digest of the compact text, in hexadecimal. -/
def contentHash (ms metadata : Members) : String :=
  Md5.hex (Md5.digest (fingerprinted ms metadata).compact.toUTF8)

end Document

/-- What turns documents into records: whose they are, and what is done with unknown kinds. -/
structure Normalizer where
  owner : Owner
  policy : KindPolicy
deriving DecidableEq, Repr, Inhabited

/-- The record of a document. -/
def Normalizer.normalize (n : Normalizer) (doc : Json) : Except Malformed Record := do
  let d ← Document.identify doc
  Document.checkKind n.policy d
  let metadata := Document.strip d.metadata
  return {
    identifier := d.uid
    apiVersion := d.apiVersion
    kind := d.kind
    contentHash := Document.contentHash d.members metadata
    owner := n.owner
    payload := .object (Members.insert "metadata" (.object metadata) d.members) }

end InventorySync
