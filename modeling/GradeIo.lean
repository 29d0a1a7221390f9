import GradeIo.DeviceResults
import GradeIo.Placeholder
import GradeIo.AssignmentRuns
import GradeIo.LoadBack
import GradeIo.Membership
import GradeIo.QuizTimes
import GradeIo.ReadPaths
import GradeIo.MemoryLists
import GradeIo.Lookups
import GradeIo.Tapped
import GradeIo.Attribution
import GradeIo.TeacherOverview
import GradeIo.Review
import GradeIo.CodeOutcomes
import GradeIo.Collections
import GradeIo.ProblemLists
import GradeIo.UserCoding
import GradeIo.Callbacks
import GradeIo.CsvParse
import GradeIo.FinishedQuiz
import GradeIo.ScrollView
import GradeIo.Listening
import GradeIo.Firestore.FieldPath
import GradeIo.Firestore.Latency
import GradeIo.Firestore.Calls
import GradeIo.Firestore.LocalView
import GradeIo.Firestore.SyncedReads
import GradeIo.Firestore.SyncedReads
