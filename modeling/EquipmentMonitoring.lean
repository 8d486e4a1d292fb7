import EquipmentMonitoring.Backend.AlertReference
import EquipmentMonitoring.Backend.AlertRows
import EquipmentMonitoring.Backend.AlertSession
import EquipmentMonitoring.Backend.AlertStorage
import EquipmentMonitoring.Backend.Alerts
import EquipmentMonitoring.Backend.ArrivalOrder
import EquipmentMonitoring.Backend.BrokerAdmin
import EquipmentMonitoring.Backend.Classification
import EquipmentMonitoring.Backend.Database
import EquipmentMonitoring.Backend.DeviceAgreement
import EquipmentMonitoring.Backend.DeviceRequests
import EquipmentMonitoring.Backend.DeviceService
import EquipmentMonitoring.Backend.FailedRemovals
import EquipmentMonitoring.Backend.Ingest
import EquipmentMonitoring.Backend.ItemSteps
import EquipmentMonitoring.Backend.Loads
import EquipmentMonitoring.Backend.OrphanAccounts
import EquipmentMonitoring.Backend.Presence
import EquipmentMonitoring.Backend.ReadModels
import EquipmentMonitoring.Backend.Replay
import EquipmentMonitoring.Backend.Router
import EquipmentMonitoring.Backend.Schemas
import EquipmentMonitoring.Backend.Specification
import EquipmentMonitoring.Backend.Validation
import EquipmentMonitoring.Exchange.BatchBodies
import EquipmentMonitoring.Exchange.BatchReplies
import EquipmentMonitoring.Exchange.Batches
import EquipmentMonitoring.Exchange.Contract
import EquipmentMonitoring.Exchange.Dashboard
import EquipmentMonitoring.Exchange.FirmwareEvents
import EquipmentMonitoring.Exchange.HandOver
import EquipmentMonitoring.Exchange.History
import EquipmentMonitoring.Exchange.Loading
import EquipmentMonitoring.Exchange.Responses
import EquipmentMonitoring.Exchange.Sizes
import EquipmentMonitoring.Exchange.Timestamps
import EquipmentMonitoring.Firmware.AppConfig
import EquipmentMonitoring.Firmware.Capacities
import EquipmentMonitoring.Firmware.Console
import EquipmentMonitoring.Firmware.Encoding
import EquipmentMonitoring.Firmware.FixedBuffers
import EquipmentMonitoring.Firmware.Identity
import EquipmentMonitoring.Firmware.Publisher
import EquipmentMonitoring.Firmware.Telemetry
import EquipmentMonitoring.Foundations.Checked
import EquipmentMonitoring.Foundations.Decimal
import EquipmentMonitoring.Foundations.DecimalText
import EquipmentMonitoring.Foundations.Escaping
import EquipmentMonitoring.Foundations.Except
import EquipmentMonitoring.Foundations.FileTable
import EquipmentMonitoring.Foundations.Generators
import EquipmentMonitoring.Foundations.Json.KeyTracking
import EquipmentMonitoring.Foundations.Json.Reader
import EquipmentMonitoring.Foundations.Json.Reports
import EquipmentMonitoring.Foundations.Json.RoundTrip
import EquipmentMonitoring.Foundations.Json.StringText
import EquipmentMonitoring.Foundations.Json.Syntax
import EquipmentMonitoring.Foundations.Json.Tokens
import EquipmentMonitoring.Foundations.Json.Value
import EquipmentMonitoring.Foundations.Latest
import EquipmentMonitoring.Foundations.Numerals
import EquipmentMonitoring.Foundations.Programs
import EquipmentMonitoring.Foundations.Rfc3339
import EquipmentMonitoring.Foundations.Rounding
import EquipmentMonitoring.Foundations.Segments
import EquipmentMonitoring.Foundations.Sql
import EquipmentMonitoring.Foundations.StampText
import EquipmentMonitoring.Foundations.Table
import EquipmentMonitoring.Foundations.UnitOfWork
import EquipmentMonitoring.Foundations.Utf8
import EquipmentMonitoring.Frontend.Validation
import EquipmentMonitoring.Gateway.Accepted
import EquipmentMonitoring.Gateway.Client
import EquipmentMonitoring.Gateway.Conflicts
import EquipmentMonitoring.Gateway.Decisions
import EquipmentMonitoring.Gateway.DeliveryOrder
import EquipmentMonitoring.Gateway.Event
import EquipmentMonitoring.Gateway.Forwarder
import EquipmentMonitoring.Gateway.Forwarding
import EquipmentMonitoring.Gateway.Intake
import EquipmentMonitoring.Gateway.Migration
import EquipmentMonitoring.Gateway.Nlohmann
import EquipmentMonitoring.Gateway.QueueFile
import EquipmentMonitoring.Gateway.Scanner
import EquipmentMonitoring.Gateway.Settlement
import EquipmentMonitoring.Gateway.StaleClaims
import EquipmentMonitoring.Gateway.Store
import EquipmentMonitoring.Gateway.StoreInvariant
import EquipmentMonitoring.Gateway.StoreSpec
import EquipmentMonitoring.Gateway.StrictParsing
import EquipmentMonitoring.Gateway.Timestamps
import EquipmentMonitoring.Gateway.Worker
import EquipmentMonitoring.Simulator.Events
import EquipmentMonitoring.Simulator.Runs
import EquipmentMonitoring.Simulator.SendBatch
