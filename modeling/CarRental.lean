import CarRental.Lib.Table
import CarRental.Lib.Transaction
import CarRental.Domain
import CarRental.Repository
import CarRental.Service.Financial
import CarRental.Service.Maintenance
import CarRental.Service.Client
import CarRental.Service.Car
import CarRental.Service.Contract
import CarRental.Service.Dashboard
import CarRental.System
import CarRental.Desk.Action
import CarRental.Desk.Invariant
import CarRental.Desk.Refinement
import CarRental.Rental
import CarRental.History
import CarRental.Ledger
import CarRental.Expenses
import CarRental.StatusColumn
import CarRental.Workshop
import CarRental.Calendar
import CarRental.Lib.Allocation
import CarRental.Sweep
import CarRental.Activation
import CarRental.Alerts
import CarRental.Lib.Footprint
import CarRental.Independence
import CarRental.FleetViews
import CarRental.Lib.Snapshot
import CarRental.Lib.UniqueTable
import CarRental.Account.Domain
import CarRental.Account.PasswordReset
import CarRental.Account.ResetLimit
import CarRental.Lib.SlidingWindow
import CarRental.Account.ResetRate
import CarRental.Account.ResetSafety
import CarRental.Account.Login
import CarRental.Account.Session
import CarRental.Settings.Service
import CarRental.Settings.Pages
import CarRental.Account.PublicApi
import CarRental.Concurrency
import CarRental.Dialog.NewContract
import CarRental.Dialog.EditContract
import CarRental.Lib.Numeral
import CarRental.Text
import CarRental.Dialog.Matricule
import CarRental.Lib.LineFilling
import CarRental.Pdf.Paragraph
import CarRental.Lib.Civil
import CarRental.Lib.Matcher
import CarRental.Dates.Dart
import CarRental.Dates.Java
import CarRental.Dates.CarDate
import CarRental.Dates.ContractDate
import CarRental.Lib.Bucket
import CarRental.Dates.FinancialChart
import CarRental.Lib.Throws
import CarRental.Desk.Calls
import CarRental.Fleet
import CarRental.Refusals
import CarRental.Progress
import CarRental.Messages
import CarRental.Settling
import CarRental.Account.Recovery
import CarRental.Dialog.ContractDetail
import CarRental.Lib.RowHistory
import CarRental.Saved
import CarRental.Dialog.ClientForm
import CarRental.Account.AppSession
import CarRental.Lib.Commit
import CarRental.Races
