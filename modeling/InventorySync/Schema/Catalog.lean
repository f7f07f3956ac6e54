import InventorySync.Schema

/-! # The built-in catalog

The kinds that are watched when no list is configured, and for which the inventory has a payload
shape of its own. -/

namespace InventorySync

/-- A watched kind together with the name that its documents carry. -/
structure CatalogRow where
  schema : Schema
  kind : String
deriving DecidableEq, Repr

/-- The built-in kinds. -/
def catalog : List CatalogRow :=
  [⟨⟨"", "v1", "namespaces"⟩, "Namespace"⟩,
   ⟨⟨"", "v1", "nodes"⟩, "Node"⟩,
   ⟨⟨"", "v1", "persistentvolumeclaims"⟩, "PersistentVolumeClaim"⟩,
   ⟨⟨"apps", "v1", "deployments"⟩, "Deployment"⟩,
   ⟨⟨"storage.k8s.io", "v1", "storageclasses"⟩, "StorageClass"⟩,
   ⟨⟨"wgpolicyk8s.io", "v1alpha2", "policyreports"⟩, "PolicyReport"⟩,
   ⟨⟨"argoproj.io", "v1alpha1", "applications"⟩, "Application"⟩,
   ⟨⟨"argoproj.io", "v1alpha1", "appprojects"⟩, "AppProject"⟩,
   ⟨⟨"cert-manager.io", "v1", "certificates"⟩, "Certificate"⟩,
   ⟨⟨"", "v1", "services"⟩, "Service"⟩,
   ⟨⟨"", "v1", "pods"⟩, "Pod"⟩,
   ⟨⟨"apps", "v1", "replicasets"⟩, "ReplicaSet"⟩,
   ⟨⟨"apps", "v1", "statefulsets"⟩, "StatefulSet"⟩,
   ⟨⟨"apps", "v1", "daemonsets"⟩, "DaemonSet"⟩,
   ⟨⟨"networking.k8s.io", "v1", "ingresses"⟩, "Ingress"⟩,
   ⟨⟨"networking.k8s.io", "v1", "ingressclasses"⟩, "IngressClass"⟩,
   ⟨⟨"aquasecurity.github.io", "v1alpha1", "vulnerabilityreports"⟩, "VulnerabilityReport"⟩,
   ⟨⟨"aquasecurity.github.io", "v1alpha1", "exposedsecretreports"⟩, "ExposedSecretReport"⟩,
   ⟨⟨"aquasecurity.github.io", "v1alpha1", "configauditreports"⟩, "ConfigAuditReport"⟩,
   ⟨⟨"aquasecurity.github.io", "v1alpha1", "rbacassessmentreports"⟩, "RbacAssessmentReport"⟩,
   ⟨⟨"aquasecurity.github.io", "v1alpha1", "clustercompliancereports"⟩,
     "ClusterComplianceReport"⟩,
   ⟨⟨"", "v1", "endpoints"⟩, "Endpoints"⟩,
   ⟨⟨"networking.k8s.io", "v1", "networkpolicies"⟩, "NetworkPolicy"⟩]

/-- The schemas watched when no list is configured, in catalog order. -/
def defaultSchemas : List Schema := catalog.map (·.schema)

/-- The text after `pre`, when the text begins with it. -/
def afterPrefix? (pre text : List Char) : Option (List Char) :=
  match pre, text with
  | [], text => some text
  | p :: ps, c :: cs => if p = c then afterPrefix? ps cs else none
  | _ :: _, [] => none

/-- Whether a row of the catalog has this kind, and the group and version that `apiVersion` names:
the version alone in the core group, else the group, a slash and the version. -/
def isKnownKind (apiVersion kind : String) : Bool :=
  catalog.any fun row =>
    row.kind = kind &&
      if row.schema.group = "" then apiVersion = row.schema.version
      else
        (afterPrefix? row.schema.group.toList apiVersion.toList).bind (afterPrefix? ['/'] ·)
          = some row.schema.version.toList

end InventorySync
