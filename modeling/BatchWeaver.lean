import BatchWeaver.Proof.Context
import BatchWeaver.Proof.Shutdown
import BatchWeaver.Proof.Blocked
import BatchWeaver.Proof.Partition
import BatchWeaver.Proof.Answers
import BatchWeaver.Proof.Materialize
import BatchWeaver.Proof.Metadata
import BatchWeaver.Proof.Certificate
import BatchWeaver.Proof.PlanDigest
import BatchWeaver.Proof.ReleaseDir
import BatchWeaver.Proof.Analysis
import BatchWeaver.Proof.Discovery
import BatchWeaver.Proof.Documents
import BatchWeaver.Proof.AnalysisCache
import BatchWeaver.Proof.KnownFields
import BatchWeaver.Proof.Timer
import BatchWeaver.Proof.SqlParams
import BatchWeaver.Proof.Adaptive
import BatchWeaver.Proof.FairShare
import BatchWeaver.Proof.Memo
import BatchWeaver.Proof.Recursion
import BatchWeaver.Proof.Starvation
import BatchWeaver.Proof.Lowering
import BatchWeaver.Proof.Redis
import BatchWeaver.Proof.Rpc
