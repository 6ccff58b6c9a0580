import ClientBatcher.Basic
import ClientBatcher.Plan
import ClientBatcher.Ops
import ClientBatcher.Scan
import ClientBatcher.Step
import ClientBatcher.Effect
import ClientBatcher.Lifecycle
import ClientBatcher.Census
import ClientBatcher.Swap
import ClientBatcher.Dispatch
import ClientBatcher.Routing
import ClientBatcher.Transaction
import ClientBatcher.Outcome
import ClientBatcher.Quiescence
import ClientBatcher.Abort
import ClientBatcher.Combine
import ClientBatcher.Accounting
import ClientBatcher.Rpcs
import ClientBatcher.Confluence
import ClientBatcher.Safety
