import ScriptBundle.Table
import ScriptBundle.Text.Characters
/-! The manifest of a bundle: which modules there are and in which order they load, what each of
them needs, and which symbols may be declared only once. In the built-in manifest the modules are
listed by level: constants, what needs only those, setup, features, and the tests last. -/
namespace ScriptBundle

structure Manifest where
  title : String
  version : String
  output : String
  coreModules : List String
  testModules : List String
  dependencies : Table (List String)
  trackedSymbols : List String
  excludedFiles : List String
  deriving DecidableEq, Repr

namespace Manifest

def allModules (m : Manifest) : List String := m.coreModules ++ m.testModules

def modulesFor (m : Manifest) (includeTests : Bool) : List String :=
  if includeTests then m.allModules else m.coreModules

def isTest (m : Manifest) (name : String) : Bool := m.testModules.contains name

def isListed (m : Manifest) (name : String) : Bool := m.allModules.contains name

def isExcluded (m : Manifest) (name : String) : Bool :=
  name = m.output || m.excludedFiles.contains name

inductive Flaw where
  | emptyOutput
  | repeatedModule (name : String)
  deriving DecidableEq, Repr

def Flaw.message : Flaw → String
  | emptyOutput => "manifest output file name is empty"
  | repeatedModule name => "module '" ++ name ++ "' is listed more than once"

def firstRepeat? (seen : List String) : List String → Option String
  | [] => none
  | name :: rest => if seen.contains name then some name else firstRepeat? (name :: seen) rest

def flaw? (m : Manifest) : Option Flaw :=
  if Text.allBlank m.output then some .emptyOutput
  else (firstRepeat? [] m.allModules).map .repeatedModule

def builtinCore : List String :=
  ["Constants.gs", "SecurityUtils.gs", "HTMLTemplates.gs", "I18n.gs", "TestConfig.gs", "Code.gs",
   "DataArchiving.gs", "ADHDEnhancements.gs", "AdminGrievanceMessages.gs", "AuditLoggingRBAC.gs",
   "EnhancedADHDFeatures.gs", "AddRecommendations.gs", "AutomatedNotifications.gs",
   "AutomatedReports.gs", "BatchGrievanceRecalc.gs", "BatchOperations.gs",
   "CalendarIntegration.gs", "ColumnToggles.gs", "CustomReportBuilder.gs", "DarkModeThemes.gs",
   "DataBackupRecovery.gs", "DataCachingLayer.gs", "DataIntegrityEnhancements.gs",
   "DataPagination.gs", "DistributedLocks.gs", "EnhancedErrorHandling.gs", "FAQKnowledgeBase.gs",
   "GettingStartedAndFAQ.gs", "GmailIntegration.gs", "GoogleDriveIntegration.gs",
   "GracefulDegradation.gs", "GrievanceFloatToggle.gs", "GrievanceWorkflow.gs",
   "IdempotentOperations.gs", "IncrementalBackupSystem.gs", "InteractiveDashboard.gs",
   "KeyboardShortcuts.gs", "LazyLoadCharts.gs", "MemberDirectoryDropdowns.gs",
   "MemberDirectoryGoogleFormLink.gs", "MemberSearch.gs", "MobileOptimization.gs",
   "OptimizedDashboardRebuild.gs", "PerformanceAndBackup.gs", "PerformanceMonitoring.gs",
   "Phase6Integration.gs", "PredictiveAnalytics.gs", "ReorganizedMenu.gs", "RootCauseAnalysis.gs",
   "SecurityAndAdmin.gs", "SecurityService.gs", "SeedNuke.gs", "SmartAutoAssignment.gs",
   "TransactionRollback.gs", "UIFeatures.gs", "UndoRedoSystem.gs", "UnifiedOperationsMonitor.gs",
   "UtilityService.gs", "WorkflowStateMachine.gs"]

def builtinTests : List String :=
  ["TestFramework.gs", "Code.test.gs", "Integration.test.gs"]

def builtinDependencies : Table (List String) :=
  ⟨[("SecurityUtils.gs", ["Constants.gs"]),
    ("HTMLTemplates.gs", ["Constants.gs"]),
    ("I18n.gs", ["Constants.gs"]),
    ("TestConfig.gs", ["Constants.gs"]),
    ("Code.gs", ["Constants.gs", "SecurityUtils.gs"]),
    ("DataArchiving.gs", ["Constants.gs", "SecurityUtils.gs", "HTMLTemplates.gs"]),
    ("TestFramework.gs", ["Constants.gs", "TestConfig.gs"]),
    ("Code.test.gs", ["TestFramework.gs", "Code.gs"]),
    ("Integration.test.gs", ["TestFramework.gs"])]⟩

def builtinSymbols : List String :=
  ["SHEETS", "COLORS", "MEMBER_COLS", "GRIEVANCE_COLS", "SECURITY_ROLES", "ADMIN_EMAILS", "ROLES",
   "GRIEVANCE_TIMELINES", "GRIEVANCE_STATUSES", "GRIEVANCE_STEPS", "ISSUE_CATEGORIES",
   "CONFIG_COLS", "CACHE_CONFIG", "CACHE_KEYS", "ERROR_CONFIG", "ERROR_CATEGORIES", "UI_CONFIG",
   "EMAIL_CONFIG", "PERFORMANCE_CONFIG", "FEATURE_FLAGS", "VERSION_INFO", "RATE_LIMITS",
   "AUDIT_LOG_SHEET"]

def builtinExcluded : List String :=
  ["ConsolidatedDashboard.gs", "Complete509Dashboard.gs", "build.js", "fix_destructuring.js"]

def builtin : Manifest where
  title := "509 DASHBOARD"
  version := "2.0.0"
  output := "ConsolidatedDashboard.gs"
  coreModules := builtinCore
  testModules := builtinTests
  dependencies := builtinDependencies
  trackedSymbols := builtinSymbols
  excludedFiles := builtinExcluded

end Manifest
end ScriptBundle
