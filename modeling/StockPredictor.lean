import StockPredictor.Base.Loop
import StockPredictor.Base.Dictionary
import StockPredictor.Base.Text
import StockPredictor.Base.Rounding
import StockPredictor.Base.Average
import StockPredictor.Quant.Functions
import StockPredictor.Quant.Simulator
import StockPredictor.Quant.ClosedForm
import StockPredictor.Base.Erfc
import StockPredictor.Quant.Law
import StockPredictor.Quant.Unbiased
import StockPredictor.Base.Weighted
import StockPredictor.Quant.Weights
import StockPredictor.Service.Exn
import StockPredictor.Service.History
import StockPredictor.Base.Program
import StockPredictor.Ticker.Listing
import StockPredictor.Ticker.Engine
import StockPredictor.Ticker.Load
import StockPredictor.Ticker.Directory
import StockPredictor.Ticker.Failure
import StockPredictor.Base.Run
import StockPredictor.Ticker.Freshness
import StockPredictor.Service.Arguments
import StockPredictor.Service.Manager
import StockPredictor.Service.Overloads
import StockPredictor.Service.Guards
import StockPredictor.Service.Units
import StockPredictor.Base.Halley
import StockPredictor.Base.Horner
import StockPredictor.Base.Sequence
import StockPredictor.Quant.Approximation
import StockPredictor.Quant.Dispersion
import StockPredictor.Quant.Rates
import StockPredictor.Quant.Refinement
import StockPredictor.Quant.Sampler
import StockPredictor.Service.Dispersion
import StockPredictor.Service.Number
import StockPredictor.Service.Options
import StockPredictor.Service.Returns
import StockPredictor.Yahoo.Errors
import StockPredictor.Yahoo.Historical
import StockPredictor.Quant.Regions
import StockPredictor.Ticker.Records
import StockPredictor.Ticker.Trailer
import StockPredictor.Yahoo.Options
import StockPredictor.Base.Literal
import StockPredictor.Base.Url
import StockPredictor.Yahoo.Request
import StockPredictor.Base.Rules
import StockPredictor.Base.Variance
import StockPredictor.Quant.Variance
import StockPredictor.Quant.Growth
import StockPredictor.Quant.Streams
import StockPredictor.Quant.LogReturn
import StockPredictor.Service.Integer
import StockPredictor.Service.Reports
import StockPredictor.Console.Program
import StockPredictor.Base.Rose
import StockPredictor.Yahoo.Page
import StockPredictor.Base.Calendar
import StockPredictor.Base.Template
import StockPredictor.Yahoo.HistoryRequest
import StockPredictor.Ticker.Session
import StockPredictor.Quandl.Curve
import StockPredictor.Engines.DataService
import StockPredictor.Engines.Program
import StockPredictor.Engines.Failure
import StockPredictor.Base.Ulp
import StockPredictor.Base.Double
import StockPredictor.Base.Fill
import StockPredictor.Native.Functions
import StockPredictor.Native.Simulator
import StockPredictor.Native.Exact
import StockPredictor.Doubles.History
import StockPredictor.Doubles.Volatility
import StockPredictor.Doubles.Fixed
import StockPredictor.Doubles.Survival
import StockPredictor.Doubles.Manager
import StockPredictor.Doubles.Guards
import StockPredictor.Doubles.Exact
