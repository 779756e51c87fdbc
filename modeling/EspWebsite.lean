import EspWebsite.Autoscheduler.SwapErrors
import EspWebsite.Autoscheduler.TeacherChecks
import EspWebsite.Autoscheduler.Scoring.UnitScores
import EspWebsite.Autoscheduler.Simplification
import EspWebsite.Autoscheduler.Search
import EspWebsite.Autoscheduler.TeacherTimes
import EspWebsite.ArgCache.Coherence
import EspWebsite.Users.CombinationLists
import EspWebsite.Users.Merging
import EspWebsite.PhaseZero.Winners
import EspWebsite.TeacherEvents.EventSignup
import EspWebsite.Qsd.InlineEditing
import EspWebsite.ScheduleTests.LunchConstraints
import EspWebsite.Cache.Adding
import EspWebsite.Library.Transactions
import EspWebsite.ClassChange.Termination
import EspWebsite.ClassChange.Capacity
import EspWebsite.ClassChange.Kicks
import EspWebsite.ClassChange.Completion
import EspWebsite.Lottery.Limits
import EspWebsite.Lottery.LunchCoverage
import EspWebsite.Accounting.RoundTrip
import EspWebsite.Accounting.CardCharges
import EspWebsite.Accounting.FinancialAid
import EspWebsite.Users.ProgramsByPermission
import EspWebsite.ClassReg.TaughtTime
import EspWebsite.CustomForms.Isolation
import EspWebsite.Dbmail.CronMail
import EspWebsite.Users.Forwarders
import EspWebsite.Registration.MailingLists
import EspWebsite.Registration.Unenroll
import EspWebsite.Registration.Enrollment
import EspWebsite.Registration.Priorities
import EspWebsite.Registration.OnsiteUpdates
import EspWebsite.AjaxScheduling.Consistency
import EspWebsite.AjaxScheduling.Polling
import EspWebsite.AjaxScheduling.Refusals
import EspWebsite.Autoscheduler.SearchHistory
import EspWebsite.Users.Usernames
import EspWebsite.Registration.Cancelling
import EspWebsite.Resources.RoomChanges
import EspWebsite.ClassReg.Statuses
import EspWebsite.Cal.Collapse
import EspWebsite.Users.QueryFilters
import EspWebsite.Registration.TwoPhase
import EspWebsite.Scheduling.ViableTimes
import EspWebsite.Scheduling.StartTimes
import EspWebsite.AjaxScheduling.Swaps
import EspWebsite.Library.Delimited
import EspWebsite.Program.ArchiveClass
import EspWebsite.Program.CheckedIn
import EspWebsite.Program.GradeCaps
import EspWebsite.Autoscheduler.DoubleBooking
import EspWebsite.Accounting.Approval
import EspWebsite.Accounting.Preferences
import EspWebsite.Accounting.Donations
import EspWebsite.Rooms.DataModel
import EspWebsite.Rooms.Imports
import EspWebsite.Rooms.Matching
import EspWebsite.Rooms.ImportGroups
import EspWebsite.Dbmail.SendMail
import EspWebsite.Autoscheduler.LunchChecks
import EspWebsite.Scheduling.DependencyChains
import EspWebsite.Program.MissingTeachers
import EspWebsite.Utils.QueryBuilder
import EspWebsite.Autoscheduler.CriterionSpecs
import EspWebsite.PhaseZero.Undo
import EspWebsite.Registration.UnenrollUndo
import EspWebsite.Registration.SavedLunches
import EspWebsite.Program.VolunteerOffers
import EspWebsite.TeacherEvents.SignupPosts
import EspWebsite.Program.BigBoard
import EspWebsite.Survey.Averages
import EspWebsite.Cache.KeyFamilies
import EspWebsite.Autoscheduler.SearchRuns
import EspWebsite.AjaxScheduling.Following
