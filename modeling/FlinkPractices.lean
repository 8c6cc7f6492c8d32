import FlinkPractices.Connector.Leak
import FlinkPractices.Connector.Cleanup
import FlinkPractices.Connector.Cancel
import FlinkPractices.Connector.Disconnect
import FlinkPractices.Connector.SingleFlight
import FlinkPractices.Connector.Transitions
import FlinkPractices.Connector.Waiters
import FlinkPractices.Connector.Backoff
import FlinkPractices.Connector.Limits
import FlinkPractices.Connector.Progress
import FlinkPractices.Upbit.Connector
import FlinkPractices.Upbit.Completeness
import FlinkPractices.Upbit.Stream
import FlinkPractices.Upbit.Replay
import FlinkPractices.Upbit.Subscribe
import FlinkPractices.Upbit.Wire
import FlinkPractices.Upbit.Seeds
import FlinkPractices.Upbit.Countdown
import FlinkPractices.Upbit.Arrivals
import FlinkPractices.Service.TradeEncoders
import FlinkPractices.Service.Ledger
import FlinkPractices.Service.LoopRuns
import FlinkPractices.Service.UseCase
import FlinkPractices.Service.Restart
import FlinkPractices.Service.Consumers
import FlinkPractices.Service.Status
import FlinkPractices.Service.Publishing
import FlinkPractices.Service.Flow
import FlinkPractices.Service.Seniority
import FlinkPractices.Service.Progress
import FlinkPractices.Service.Termination
import FlinkPractices.Kafka.Calls
import FlinkPractices.Kafka.Metrics
import FlinkPractices.Fraud.Completeness
import FlinkPractices.Fraud.Soundness
import FlinkPractices.Fraud.Alerts
import FlinkPractices.Fraud.Exact
import FlinkPractices.Fraud.Job
import FlinkPractices.Fraud.Watermarks
import FlinkPractices.Pipeline
import FlinkPractices.Validity
import FlinkPractices.Composition
