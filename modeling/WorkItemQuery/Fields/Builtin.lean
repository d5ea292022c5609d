/-
The entities known without any mapping file: work items in general, tasks and bugs.
-/
import WorkItemQuery.Fields.Registry

namespace WorkItemQuery.Registry

/-- The properties that all work items have. -/
def withWorkItemProperties (m : EntityMapping) : EntityMapping :=
  m.property "Id" "System.Id"
    |>.property "Title" "System.Title"
    |>.property "State" "System.State"
    |>.property "WorkItemType" "System.WorkItemType"
    |>.property "AssignedTo" "System.AssignedTo"
    |>.property "AreaPath" "System.AreaPath"
    |>.property "IterationPath" "System.IterationPath"
    |>.property "ChangedDate" "System.ChangedDate"
    |>.hiddenProperty "Rev" "System.Rev"
    |>.hiddenProperty "Reason" "System.Reason"
    |>.hiddenProperty "CreatedDate" "System.CreatedDate"
    |>.hiddenProperty "Tags" "System.Tags"
    |>.hiddenProperty "Description" "System.Description"
    |>.hiddenProperty "History" "System.History"

def workItem : EntityMapping := withWorkItemProperties (.new "WorkItem")

def task : EntityMapping :=
  withWorkItemProperties (.new "Task")
    |>.property "Priority" "Microsoft.VSTS.Common.Priority"
    |>.property "RemainingWork" "Microsoft.VSTS.Scheduling.RemainingWork"
    |>.hiddenProperty "OriginalEstimate" "Microsoft.VSTS.Scheduling.OriginalEstimate"
    |>.hiddenProperty "CompletedWork" "Microsoft.VSTS.Scheduling.CompletedWork"
    |>.workItemType "Task"

def bug : EntityMapping :=
  withWorkItemProperties (.new "Bug")
    |>.property "Priority" "Microsoft.VSTS.Common.Priority"
    |>.property "Severity" "Microsoft.VSTS.Common.Severity"
    |>.hiddenProperty "ReproSteps" "Microsoft.VSTS.TCM.ReproSteps"
    |>.workItemType "Bug"

/-- The registry of the built-in entities. -/
def builtin : Registry := ofMappings [workItem, task, bug]

end WorkItemQuery.Registry
