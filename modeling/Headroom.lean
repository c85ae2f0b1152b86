import Headroom.Daemon.Workspace
import Headroom.Main
import Headroom.Rehearsal
import Headroom.Proofs.Procedure
import Headroom.Proofs.Encoding
import Headroom.Proofs.Store
import Headroom.Proofs.Provision
import Headroom.Proofs.Resizing
import Headroom.Proofs.Search
import Headroom.Proofs.DurationText
import Headroom.Proofs.Snapshot
import Headroom.Proofs.Accounting
import Headroom.Proofs.Rounding
import Headroom.Proofs.Planning
import Headroom.Proofs.Demand
import Headroom.Proofs.Likeness
import Headroom.Proofs.Order
import Headroom.Proofs.Covering
import Headroom.Proofs.Disturbance
import Headroom.Proofs.Economy
import Headroom.Proofs.Course
import Headroom.Proofs.Reaping
import Headroom.Proofs.Removal
import Headroom.Proofs.Difference
import Headroom.Proofs.Uniform
import Headroom.Proofs.Convergence
import Headroom.Proofs.Necessity
import Headroom.Proofs.Restraint
import Headroom.Proofs.Stability
import Headroom.Proofs.Outage
import Headroom.Proofs.Calendar
import Headroom.Proofs.Stamp
import Headroom.Proofs.Waiting
import Headroom.Proofs.Interruption
import Headroom.Proofs.Parallel
import Headroom.Proofs.Isolation
import Headroom.Proofs.History
import Headroom.Proofs.Legibility
import Headroom.Proofs.Grace
import Headroom.Proofs.Survival
import Headroom.Proofs.Faultless
import Headroom.Proofs.Editing
import Headroom.Proofs.Repetition
import Headroom.Proofs.Grammar
import Headroom.Proofs.Strict
import Headroom.Proofs.Document
import Headroom.Proofs.Respelling
import Headroom.Proofs.Notation
import Headroom.Proofs.Written
import Headroom.Proofs.Archive
import Headroom.Proofs.Contents
import Headroom.Proofs.Marking
