import SecretRenewal.Backoff.Execution
import SecretRenewal.Json.Writer
import SecretRenewal.Lease
import SecretRenewal.Logging.Setup
import SecretRenewal.Rehearsal.Script
import SecretRenewal.Server.Live
import SecretRenewal.Sink
import SecretRenewal.Proofs.Lease.Aggregation
import SecretRenewal.Proofs.Backoff.Attempts
import SecretRenewal.Proofs.Loader.Moves
import SecretRenewal.Proofs.Loader.Courses
import SecretRenewal.Proofs.Loader.Turns
import SecretRenewal.Proofs.Loader.Commits
import SecretRenewal.Proofs.Loader.Background
import SecretRenewal.Proofs.Loader.Alarms
import SecretRenewal.Proofs.Loader.Rounds
import SecretRenewal.Proofs.Loader.Accounts
import SecretRenewal.Proofs.Loader.Retries
import SecretRenewal.Proofs.Loader.Locks
import SecretRenewal.Proofs.Loader.Guards
import SecretRenewal.Proofs.Loader.Outcomes
import SecretRenewal.Proofs.Loader.Stops
import SecretRenewal.Proofs.Loader.Waits
import SecretRenewal.Proofs.Loader.Breakdowns
import SecretRenewal.Proofs.Loader.Leases
import SecretRenewal.Proofs.Loader.Renewals
import SecretRenewal.Proofs.Loader.Joins
import SecretRenewal.Proofs.Loader.Tokens
import SecretRenewal.Proofs.Server.Requests
import SecretRenewal.Proofs.Loader.Rings
import SecretRenewal.Proofs.Loader.Obstructions
import SecretRenewal.Proofs.Loader.Secrecy
import SecretRenewal.Proofs.Loader.Merges
import SecretRenewal.Proofs.Loader.Conduct
import SecretRenewal.Proofs.Server.Failures
import SecretRenewal.Proofs.Wire.Acceptance
import SecretRenewal.Proofs.Server.Payloads
import SecretRenewal.Proofs.Server.Addresses
import SecretRenewal.Proofs.Backoff.Doubling
import SecretRenewal.Proofs.Backoff.Empties
import SecretRenewal.Proofs.Loader.Pauses
import SecretRenewal.Proofs.Server.Answers
import SecretRenewal.Proofs.Sink.Contents
import SecretRenewal.Proofs.Server.Variables
import SecretRenewal.Proofs.Loader.Counts
import SecretRenewal.Proofs.Backoff.Lengthening
import SecretRenewal.Proofs.Error.Causes
